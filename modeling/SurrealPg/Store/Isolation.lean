import SurrealPg.PgTx.Draft
import SurrealPg.Postgres.Branches
import SurrealPg.Store.Cluster
import SurrealPg.Store.ReadOnly

/-!
# A transaction among others is a draft

A store that begins its transactions `REPEATABLE READ` or `SERIALIZABLE`, on a server where any
number of other transactions are under way, of any level and doing anything. Statements may touch
any number of rows, futures may be dropped, and the server may refuse what it likes.

A transaction of the store answers as the draft that was begun on contents which were committed at
one moment of its life, and that is all it has to do with the others until it is committed. The
commit changes the rows the draft changed, each of which is still as that moment had it, and no
others: it overwrites nothing it has not seen.

The one way out is a row that was deleted after the snapshot was taken and that the transaction
inserts again.

Nothing updates the statistics in the catalog meanwhile.
-/

namespace SurrealPg

open Postgres Postgres.Branches Semantics

/-! ## The server -/

/-- The contents are this catalog and a table of these rows. -/
def ShowsRows (catalog : List (String × ℤ)) (d : Database) (rows : Key → Option Val) : Prop :=
  d.pgClass = catalog ∧ d.kv.get? = rows

theorem ShowsRows.unique {catalog : List (String × ℤ)} (d d' : Database) (rows : Key → Option Val)
    (h : ShowsRows catalog d rows) (h' : ShowsRows catalog d' rows) : d = d' := by
  obtain ⟨kv, pgClass⟩ := d
  obtain ⟨kv', pgClass'⟩ := d'
  have hkv : kv = kv' := Table.ext_get? (congrFun (h.2.trans h'.2.symm))
  exact congr (congrArg Database.mk hkv) (h.1.trans h'.1.symm)

section

variable {ι : Type} [DecidableEq ι]

/-- How transaction `i` may be answered, and what that makes of the database. -/
inductive Replies (catalog : List (String × ℤ)) (i : ι) (x : Branches ι Key Val) :
    (q : DbReq) → q.Answer → Branches ι Key Val → Prop
  | store {q : StoreReq} (r : q.Answer) : (∀ level, q ≠ .execute (.begin level)) →
    Replies catalog i x (.store q) r x
  | begin {level : String} {l : Isolation} : Isolation.ofSql level = some l →
    Replies catalog i x (.store (.execute (.begin level))) (.ok ()) (x.put i (.begin l) [])
  | beginRefused {level : String} (e : SqlxError) :
    Replies catalog i x (.store (.execute (.begin level))) (.error e) x
  | run {stmt : Statement Stmt} {r : Except SqlxError Reply} {x' : Branches ι Key Val} :
    x.Answers engine (ShowsRows catalog) i stmt r x' →
    Replies catalog i x (.tx (.sql (.run stmt))) r x'
  /-- A `COMMIT` that takes effect, acknowledged or not. -/
  | commit (r : Except SqlxError Reply) {x' : Branches ι Key Val} :
    x.Ends (ShowsRows catalog) i true x' → Replies catalog i x (.tx (.sql .commit)) r x'
  /-- `COMMIT` of an aborted transaction, or one that is refused. -/
  | discard (r : Except SqlxError Reply) {x' : Branches ι Key Val} :
    (∀ t, x.cluster.txn i = some t → t.aborted = true) ∨ r.isOk = false →
    x.Ends (ShowsRows catalog) i false x' → Replies catalog i x (.tx (.sql .commit)) r x'
  | rollback (r : Except SqlxError Reply) {x' : Branches ι Key Val} :
    x.Ends (ShowsRows catalog) i false x' → Replies catalog i x (.tx (.sql .rollback)) r x'
  | release : Replies catalog i x (.tx .releaseActive) () x

/-- The server of a pool of transactions. One whose future is dropped is rolled back, or its
`COMMIT` was under way and takes effect. -/
def isolating (catalog : List (String × ℤ)) :
    Server ι DbReq DbReq.Answer Unit (Branches ι Key Val) where
  answer := Replies catalog
  unwind i x _ x' := ∃ effective, x.Ends (ShowsRows catalog) i effective x'

/-- What the others do leaves transaction `i` as it is, and committed what it has written. -/
structure Beside (i : ι) (x x' : Branches ι Key Val) : Prop extends Aside x x' i where
  clean : ∀ t, x.cluster.txn i = some t → x.Clean t → x'.Clean t

variable {catalog : List (String × ℤ)} {i j : ι} {x x' : Branches ι Key Val}

omit [DecidableEq ι] in
theorem beside_of_rows_eq (h : Aside x x' i) (hrows : x'.cluster.rows = x.cluster.rows) :
    Beside i x x' where
  toAside := h
  clean t _ hclean := by
    refine ⟨hclean.1, fun k hk ↦ ?_⟩
    rw [hrows]
    exact hclean.2 k hk

theorem beside_of_ends {effective : Bool} (h : x.WellFormed (ShowsRows catalog))
    (hend : x.Ends (ShowsRows catalog) j effective x') (hj : i ≠ j) : Beside i x x' where
  toAside := hend.aside hj
  clean _ ht hclean := hclean.ends h ht hend hj

namespace Replies

variable {q : DbReq} {r : q.Answer}

theorem wellFormed (hr : Replies catalog i x q r x') (h : x.WellFormed (ShowsRows catalog)) :
    x'.WellFormed (ShowsRows catalog) := by
  cases hr with
  | store | beginRefused | release => exact h
  | «begin» => exact h.begin i _
  | run hans => exact h.answers hans
  | commit _ hend | discard _ _ hend | rollback _ hend => exact h.ends hend

theorem beside (hr : Replies catalog j x q r x') (h : x.WellFormed (ShowsRows catalog))
    (hj : i ≠ j) : Beside i x x' := by
  cases hr with
  | store | beginRefused | release => exact beside_of_rows_eq ⟨rfl, rfl⟩ rfl
  | «begin» => exact beside_of_rows_eq (aside_put hj) rfl
  | run hans => exact beside_of_rows_eq (hans.aside hj) hans.rows_eq
  | commit _ hend | discard _ _ hend | rollback _ hend => exact beside_of_ends h hend hj

/-- What `begin` is answered, looking at no rows. -/
theorem cluster {q : StoreReq} {r : q.Answer} (hr : Replies catalog i x (.store q) r x') :
    SurrealPg.Answers i x.cluster (.store q) r x'.cluster ∧ (x.marks i = [] → x'.marks i = []) := by
  cases hr with
  | store r hq => exact ⟨.store r hq, id⟩
  | «begin» hl => exact ⟨.begin hl, fun _ ↦ put_marks_self⟩
  | beginRefused e => exact ⟨.beginRefused e, id⟩

end Replies

end

/-! ## The program -/

namespace PgTransaction

/-- Operations performed one after another. -/
def performAll : PgTransaction → List Op → Async (List (Result Answer) × PgTransaction)
  | tx, [] => pure ([], tx)
  | tx, op :: ops => do
    let r ← op.run tx
    let rs ← r.2.performAll ops
    return (r.1 :: rs.1, rs.2)

theorem performAll_eval (faults : ℕ → Option SqlxError) (c : Client) (ops : List Op) :
    (c.tx.performAll ops).eval (Wire.answer faults) c.wire =
      (((serve (Client.perform faults) c ops).1, (serve (Client.perform faults) c ops).2.tx),
        (serve (Client.perform faults) c ops).2.wire) := by
  induction ops generalizing c with
  | nil => rfl
  | cons op ops ih =>
    have ih := ih (c.perform faults op).2
    rw [performAll, Dialogue.eval_bind, serve]
    dsimp only [Client.perform] at ih ⊢
    rw [Dialogue.eval_bind, ih]
    rfl

theorem SameMode.trans {tx tx' tx'' : PgTransaction} (h : tx''.SameMode tx')
    (h' : tx'.SameMode tx) : tx''.SameMode tx :=
  ⟨h.conn.trans h'.conn, h.writeable.trans h'.writeable⟩

theorem performAll_sends (tx : PgTransaction) (ops : List Op) :
    (tx.performAll ops).All (Sends tx tx.writeable) fun r ↦ r.2.SameMode tx := by
  induction ops generalizing tx with
  | nil => exact .refl tx
  | cons op ops ih =>
    have hrun := (op.run_sends tx).mono
      (fun _ _ ↦ Sends.mono fun hmay ↦ (Bool.and_eq_true_iff.mp hmay).2) fun _ h ↦ h
    refine hrun.bind fun r hmode ↦ ?_
    refine Dialogue.All.bind ((ih r.2).mono ?_ fun _ h ↦ h.trans hmode) fun _ h ↦ h
    rintro q u ⟨c, left, hconn, hleft, hguard, hwrite⟩
    rw [hmode.conn] at hconn
    rw [hmode.writeable] at hwrite
    exact .statement c left hconn (hleft.trans hmode) hguard hwrite

end PgTransaction

theorem PgTransaction.performAll_conn (conn : TxConn) (write : Bool) (ops : List Op) :
    (performAll ⟨some conn, write, 0, []⟩ ops).All (Sends ⟨some conn, write, 0, []⟩ write)
      fun r ↦ r.2.conn = some conn :=
  (performAll_sends ⟨some conn, write, 0, []⟩ ops).mono (fun _ _ hsends ↦ hsends)
    fun _ hmode ↦ hmode.conn

/-- What the operations have answered and what the `COMMIT` has, if there was a `BEGIN`. -/
abbrev Transacted := Result (List (Result Answer) × Result Unit)

/-- The `COMMIT` after the operations. -/
def finish (r : List (Result Answer) × PgTransaction) : DbAsync Transacted :=
  (fun a ↦ .ok (r.1, a.1)) <$> onTx r.2.commit

/-- The operations after the `BEGIN`. -/
def afterBegin (ops : List Op) : Result PgTransaction → DbAsync Transacted
  | .error e => pure (.error e)
  | .ok tx => onTx (tx.performAll ops) >>= finish

/-- A transaction from its `begin` to its `COMMIT`. -/
def transact (s : PgStore) (write : Bool) (ops : List Op) : DbAsync Transacted :=
  (s.begin write).embed .store (fun _ r ↦ r) (fun _ ↦ ()) >>= afterBegin ops

theorem finish_eq {r : List (Result Answer) × PgTransaction} {conn : TxConn}
    (hconn : r.2.conn = some conn) : finish r = .ask (.tx (.sql .commit)) (some ()) fun reply ↦
      .ask (.tx .releaseActive) none fun _ ↦
        .done (.ok (r.1, (reply.mapError (.fromSqlx none)).map fun _ ↦ ())) := by
  rw [finish, PgTransaction.commit, PgTransaction.endsBy_commitInner.close_eq hconn]
  rfl

theorem finish_ne_done {a : Async (List (Result Answer) × PgTransaction)} {conn : TxConn}
    {may : Request → Option Unwound → Prop} (h : a.All may fun r ↦ r.2.conn = some conn)
    (res : Transacted) : onTx a >>= finish ≠ .done res := by
  intro hres
  cases a with
  | done r =>
    have hfinish : onTx (.done r) >>= finish = _ := finish_eq h
    rw [hfinish] at hres
    cases hres
  | ask q u next =>
    rw [onTx, Dialogue.embed_ask, Dialogue.ask_bind] at hres
    cases hres

/-! ## Alone on its contents -/

/-- Whatever contents the transaction may be on, alone on them it comes to where it is, with `a`
still to do, if it is refused there what it was refused. -/
def Mirrors (catalog : List (String × ℤ)) (tx : PgTransaction) (ops : List Op) (t : Txn Key Val)
    (marks : List (String × Writes Key Val))
    (a : Async (List (Result Answer) × PgTransaction)) : Prop :=
  ∃ (f : ℕ → Option SqlxError) (n : ℕ), ∀ base rows, ShowsRows catalog base rows →
    (∀ snap, t.snapshot = some snap → snap.rows = rows) →
      ∃ b, Shadows (ShowsRows catalog) rows t marks b ∧ ∀ faults, (∀ m < n, faults m = f m) →
        (tx.performAll ops).eval (Wire.answer faults) ⟨.inBlock (Block.begin base), 0⟩ =
          a.eval (Wire.answer faults) ⟨.inBlock b, n⟩

section

variable {ι : Type} {catalog : List (String × ℤ)} {i : ι} {x x' : Branches ι Key Val}
  {tx : PgTransaction} {ops : List Op} {t t' : Txn Key Val}
  {marks : List (String × Writes Key Val)} {base : Database} {rows : Key → Option Val}

theorem mirrors_begin (l : Isolation) :
    Mirrors catalog tx ops (.begin l) [] (tx.performAll ops) :=
  ⟨fun _ ↦ none, 0, fun base _ hbase _ ↦ ⟨Block.begin base, shadows_begin hbase l, fun _ _ ↦ rfl⟩⟩

theorem Mirrors.step {stmt : Statement Stmt} {u : Option Unwound} {r : Except SqlxError Reply}
    {next : Except SqlxError Reply → Async (List (Result Answer) × PgTransaction)}
    (h : Mirrors catalog tx ops t (x.marks i) (.ask (.sql (.run stmt)) u next))
    (hm : Branches.Mirrored engine (ShowsRows catalog) x x' i t stmt r t') :
    Mirrors catalog tx ops t' (x'.marks i) (next r) := by
  obtain ⟨f, n, h⟩ := h
  refine ⟨Function.update f n (refusalOf r), n + 1, fun base rows hbase hrows ↦ ?_⟩
  have hold : ∀ snap, t.snapshot = some snap → snap.rows = rows := by
    intro snap hsnap
    refine hrows snap ?_
    obtain heq | heq := hm.snapshot
    · rw [heq, hsnap]
    · rw [heq, Cluster.snapshotOf, hsnap, Option.getD_some]
  obtain ⟨b, hb, heval⟩ := h base rows hbase hold
  obtain ⟨hans, hb'⟩ := hm.run rows b hb hrows
  refine ⟨_, hb', fun faults hfaults ↦ ?_⟩
  have hn : faults n = refusalOf r := by
    rw [hfaults n (Nat.lt_succ_self n), Function.update_self]
  have hbefore : ∀ m < n, faults m = f m := by
    intro m hm
    rw [hfaults m (Nat.lt_succ_of_lt hm), Function.update_of_ne (Nat.ne_of_lt hm)]
  have hrun : Wire.answer faults ⟨.inBlock b, n⟩ (.sql (.run stmt)) =
      (r, ⟨.inBlock (b.run engine (refusalOf r) stmt).2, n + 1⟩) := by
    rw [Wire.answer_run rfl]
    dsimp only
    rw [hn, hans]
  rw [heval faults hbefore, Dialogue.eval_ask, hrun]

theorem Client.refusals_map_fst (faults : ℕ → Option SqlxError) (c : Client) (ops : List Op) :
    (c.refusals faults ops).map Prod.fst = ops := by
  induction ops generalizing c with
  | nil => rfl
  | cons op ops ih => rw [refusals, List.map_cons, ih]

/-- **The operations have answered** as those of a draft begun on the contents, which is where the
transaction is. -/
theorem Mirrors.answers {conn : TxConn} {write : Bool} {rs : List (Result Answer)}
    (h : Mirrors catalog ⟨some conn, write, 0, []⟩ ops t marks (.done (rs, tx)))
    (hbase : ShowsRows catalog base rows)
    (hrows : ∀ snap, t.snapshot = some snap → snap.rows = rows) :
    ∃ refusals b, refusals.map Prod.fst = ops ∧
      rs = (serve (Draft.perform write catalog) (.begun base.kv.toMap) refusals).1 ∧
      (serve (Draft.perform write catalog) (.begun base.kv.toMap) refusals).2.cur =
        (if b.aborted then none else some b.cur.kv.toMap) ∧
      Shadows (ShowsRows catalog) rows t marks b := by
  obtain ⟨f, n, h⟩ := h
  obtain ⟨b, hb, heval⟩ := h base rows hbase hrows
  obtain ⟨rfl, -⟩ := hbase
  obtain ⟨hans, b', hshows⟩ := (Client.shows_begun conn write base).serve f ops
  have hend := (PgTransaction.performAll_eval f (.begun conn write base) ops).symm.trans
    (heval f fun _ _ ↦ rfl)
  obtain ⟨hres, hwire⟩ := Prod.mk.inj hend
  obtain ⟨hrs, -⟩ := Prod.mk.inj hres
  have hsession := hshows.session
  rw [hwire] at hsession
  obtain rfl := Session.inBlock.inj hsession
  exact ⟨_, _, Client.refusals_map_fst f _ ops, hrs.symm.trans hans, hshows.cur.symm, hb⟩

/-! ## The commit -/

/-- The rows become `rows'`: the keys in which `cur` differs from `base`, and which were as in
`base`, are as in `cur`, and the others are left alone. Nothing is done if there is no `cur`. -/
def Installs (base : Contents) (cur : Option Contents) (rows rows' : Key → Option Val) : Prop :=
  match cur with
  | none => rows' = rows
  | some m => ∀ k, (m.get k = base.get k → rows' k = rows k) ∧
      (m.get k ≠ base.get k → rows k = base.get k ∧ rows' k = m.get k)

/-- **First updater wins.** -/
theorem Installs.of_commit [DecidableEq ι] {b : Block Database}
    (hb : Shadows (ShowsRows catalog) rows t marks b) (hbase : ShowsRows catalog base rows)
    (hclean : x.Clean t) (hrows : ∀ snap, t.snapshot = some snap → snap.rows = rows)
    (hab : t.aborted = false) :
    Installs base.kv.toMap (if b.aborted then none else some b.cur.kv.toMap) x.cluster.rows
      (x.cluster.commit i t).rows := by
  rw [hb.aborted, hab, if_neg Bool.false_ne_true]
  intro k
  have hcur : b.cur.kv.get? k = (t.own k).getD (rows k) := congrFun hb.cur.2 k
  rw [Table.get_toMap, Table.get_toMap, hcur, hbase.2]
  cases hown : t.own k with
  | none =>
    rw [Option.getD_none, Cluster.commit_rows_of_none hown]
    exact ⟨fun _ ↦ rfl, fun hne ↦ absurd rfl hne⟩
  | some v =>
    obtain ⟨snap, hsnap, hrow⟩ := hclean.2 k (by rw [hown]; exact Option.some_ne_none v)
    rw [hrows snap hsnap] at hrow
    rw [Option.getD_some, Cluster.commit_rows_of_own hown]
    exact ⟨fun heq ↦ heq.trans hrow.symm, fun _ ↦ ⟨hrow, rfl⟩⟩

end

/-! ## A transaction in a run -/

/-- Calls that run transactions. -/
abbrev TransactPool (ι C : Type) :=
  Pool ι C DbReq DbReq.Answer Unit Transacted (Branches ι Key Val)

abbrev TransactEvent (ι C : Type) := PoolEvent ι C DbReq DbReq.Answer

section Runs

variable {ι C : Type} [DecidableEq ι]

/-- A step of calls that run `code`, over a database with the catalog of `d`. -/
abbrev TransactStep (d : Database) (code : C → DbAsync Transacted) :
    TransactPool ι C → TransactEvent ι C → TransactPool ι C → Prop :=
  Pool.Step (isolating d.pgClass) code

omit [DecidableEq ι] in
/-- The database is `d`, and nothing has been called. -/
abbrev startOn (d : Database) : TransactPool ι C := Pool.start (.quiet d.kv.get?)

variable (d : Database) (code : C → DbAsync Transacted) (i : ι) (write : Bool) (ops : List Op)

/-- What a run shows of a transaction that has answered `rs`: it is the draft begun on the contents
`base`, with these refusals. -/
structure Isolated (tr : List (TransactEvent ι C)) (p : TransactPool ι C)
    (rs : List (Result Answer)) (committed : Bool) (base : Database)
    (refusals : List (Op × Option SqlxError)) : Prop where
  catalog : base.pgClass = d.pgClass
  ops : refusals.map Prod.fst = ops
  /-- The contents were committed at one moment of the transaction. -/
  shown : Through (TransactStep d code) (startOn d) tr p fun m ↦
    m.mem.cluster.txn i ≠ none ∧ m.mem.cluster.rows = base.kv.get?
  answers : rs = (serve (Draft.perform write d.pgClass) (.begun base.kv.toMap) refusals).1
  /-- At one moment it has ended, with the changes of the draft, or without any if the commit was
  not acknowledged. -/
  installed : Crossed (TransactStep d code) (startOn d) tr p fun m m' ↦
    m.mem.cluster.txn i ≠ none ∧ m'.mem.cluster.txn i = none ∧
      (Installs base.kv.toMap
          (serve (Draft.perform write d.pgClass) (.begun base.kv.toMap) refusals).2.cur
          m.mem.cluster.rows m'.mem.cluster.rows ∨
        committed = false ∧ m'.mem.cluster.rows = m.mem.cluster.rows)

/-- The transaction has come to a state in which it is torn between two versions of a row. -/
def WasTorn (tr : List (TransactEvent ι C)) (p : TransactPool ι C) : Prop :=
  Through (TransactStep d code) (startOn d) tr p fun m ↦
    ∃ t, m.mem.cluster.txn i = some t ∧ m.mem.cluster.Torn t

/-- The transaction is `t` and alone on its contents, with `a` still to do. -/
structure Acting (tr : List (TransactEvent ι C)) (p : TransactPool ι C) (conn : TxConn)
    (t : Txn Key Val) (a : Async (List (Result Answer) × PgTransaction)) : Prop where
  txn : p.mem.cluster.txn i = some t
  clean : p.mem.Clean t
  untouched : write = false → ∀ k, t.own k = none
  pinned : ∀ snap, t.snapshot = some snap → (∃ base, ShowsRows d.pgClass base snap.rows) ∧
    Through (TransactStep d code) (startOn d) tr p fun m ↦
      m.mem.cluster.txn i ≠ none ∧ m.mem.cluster.rows = snap.rows
  sends : a.All (Sends ⟨some conn, write, 0, []⟩ write) fun r ↦ r.2.conn = some conn
  mirrors : Mirrors d.pgClass ⟨some conn, write, 0, []⟩ ops t (p.mem.marks i) a

/-- Where a transaction of the store is. -/
inductive TransactStage (s : PgStore) (tr : List (TransactEvent ι C)) (p : TransactPool ι C) :
    DbAsync Transacted → Prop
  | opening {φ : BeginPhase} {b : StoreAsync (Result PgTransaction)} :
    b.Follows (fun φ q u ↦ BeginPhase.May s.mode φ q u ∧ s.Sends q u) BeginPhase.next
      (BeginPhase.Ends write) φ →
    Opening s p.mem.cluster i φ → p.mem.marks i = [] →
    TransactStage s tr p (b.embed .store (fun _ r ↦ r) (fun _ ↦ ()) >>= afterBegin ops)
  | acting {conn : TxConn} {t : Txn Key Val}
    {a : Async (List (Result Answer) × PgTransaction)} :
    Acting d code i write ops tr p conn t a → TransactStage s tr p (onTx a >>= finish)
  | ended {base : Database} {refusals : List (Op × Option SqlxError)}
    {rs : List (Result Answer)} {r : Result Unit} :
    Isolated d code i write ops tr p rs r.isOk base refusals →
    TransactStage s tr p (.ask (.tx .releaseActive) none fun _ ↦ .done (.ok (rs, r)))
  | returned {base : Database} {refusals : List (Op × Option SqlxError)}
    {rs : List (Result Answer)} {r : Result Unit} :
    Isolated d code i write ops tr p rs r.isOk base refusals →
    TransactStage s tr p (.done (.ok (rs, r)))
  | failed (e : PgStoreError) : TransactStage s tr p (.done (.error e))
  | torn {x : DbAsync Transacted} : write = true → WasTorn d code i tr p → TransactStage s tr p x

variable {d code i write ops} {s : PgStore} {tr : List (TransactEvent ι C)}
  {p p' : TransactPool ι C} {e : TransactEvent ι C} {conn : TxConn} {t : Txn Key Val}

theorem Isolated.snoc {rs : List (Result Answer)} {committed : Bool} {base : Database}
    {refusals : List (Op × Option SqlxError)}
    (h : Isolated d code i write ops tr p rs committed base refusals)
    (hstep : TransactStep d code p e p') :
    Isolated d code i write ops (tr ++ [e]) p' rs committed base refusals :=
  { h with shown := h.shown.snoc hstep, installed := h.installed.snoc hstep }

theorem TransactStage.beside {x : DbAsync Transacted}
    (h : TransactStage d code i write ops s tr p x) (hstep : TransactStep d code p e p')
    (hb : Beside i p.mem p'.mem) :
    TransactStage d code i write ops s (tr ++ [e]) p' x := by
  cases h with
  | opening hfollows hopen hmarks =>
    refine .opening hfollows ?_ (hb.marks.trans hmarks)
    rw [Opening, hb.txn]
    exact hopen
  | acting h =>
    refine .acting { h with
      txn := hb.txn.trans h.txn
      clean := hb.clean _ h.txn h.clean
      pinned := fun snap hsnap ↦ (h.pinned snap hsnap).imp_right fun hseen ↦ hseen.snoc hstep
      mirrors := ?_ }
    rw [hb.marks]
    exact h.mirrors
  | ended h => exact .ended (h.snoc hstep)
  | returned h => exact .returned (h.snoc hstep)
  | failed e => exact .failed e
  | torn hwrite h => exact .torn hwrite (h.snoc hstep)

namespace Acting

theorem answer {q : Request} {u : Option Unwound}
    {next : q.Answer → Async (List (Result Answer) × PgTransaction)} {r : q.Answer}
    (h : Acting d code i write ops tr p conn t (.ask q u next))
    (hrun : Run (TransactStep d code) (startOn d) tr p)
    (hwf : p.mem.WellFormed (ShowsRows d.pgClass)) (hstep : TransactStep d code p e p')
    (hr : Replies d.pgClass i p.mem (.tx q) r p'.mem) :
    (write = true ∧ WasTorn d code i (tr ++ [e]) p') ∨
      ∃ t', Acting d code i write ops (tr ++ [e]) p' conn t' (next r) := by
  obtain ⟨hsend, hsends⟩ := h.sends
  obtain ⟨c, left, -, -, -, hmay⟩ := hsend
  cases hr with
  | run hans =>
    have huntouched : write = false →
        ∃ t', p'.mem.cluster.txn i = some t' ∧ ∀ k, t'.own k = none := by
      intro hwrite
      refine hans.untouched hwf h.txn (h.untouched hwrite) fun x hx ↦ engine_reads ?_
      have hread := hmay.resolve_left (by rw [hwrite]; exact Bool.false_ne_true)
      rw [hx, Request.isWrite] at hread
      simpa using hread
    obtain ⟨t', ht', htorn⟩ | ⟨t', hm⟩ := hans.mirrored ShowsRows.unique hwf h.txn h.clean
    · refine Or.inl ⟨?_, (hrun.snoc hstep).through ⟨t', ht', htorn⟩⟩
      by_contra hwrite
      obtain ⟨t'', ht'', hown⟩ := huntouched (Bool.eq_false_iff.mpr hwrite)
      obtain rfl := Option.some.inj (ht'.symm.trans ht'')
      obtain ⟨k, hk, -⟩ := htorn
      exact hk (hown k)
    · refine Or.inr ⟨t', hm.txn, hm.clean, fun hwrite ↦ ?_, fun snap hsnap ↦ ?_, hsends r,
        h.mirrors.step hm⟩
      · obtain ⟨t'', ht'', hown⟩ := huntouched hwrite
        obtain rfl := Option.some.inj (hm.txn.symm.trans ht'')
        exact hown
      · have hold : t.snapshot = some snap ∨
            t.snapshot = none ∧ snap = ⟨p.mem.cluster.now, p.mem.cluster.rows⟩ := by
          obtain heq | heq := hm.snapshot
          · exact Or.inl (heq.symm.trans hsnap)
          · rw [hsnap, Cluster.snapshotOf] at heq
            cases ht : t.snapshot with
            | some snap' =>
              rw [ht] at heq
              exact Or.inl heq.symm
            | none =>
              rw [ht] at heq
              exact Or.inr ⟨rfl, Option.some.inj heq⟩
        obtain hold | ⟨-, rfl⟩ := hold
        · exact (h.pinned snap hold).imp_right fun hseen ↦ hseen.snoc hstep
        · refine ⟨hwf.shown, (hrun.through ⟨?_, rfl⟩).snoc hstep⟩
          rw [h.txn]
          exact Option.some_ne_none t

theorem commit {rs : List (Result Answer)} {tx : PgTransaction} {r : Except SqlxError Reply}
    (h : Acting d code i write ops tr p conn t (.done (rs, tx)))
    (hrun : Run (TransactStep d code) (startOn d) tr p)
    (hwf : p.mem.WellFormed (ShowsRows d.pgClass)) (hstep : TransactStep d code p e p')
    (hr : Replies d.pgClass i p.mem (.tx (.sql .commit)) r p'.mem) :
    ∃ base refusals, Isolated d code i write ops (tr ++ [e]) p' rs r.isOk base refusals := by
  have hopen : p.mem.cluster.txn i ≠ none := by
    rw [h.txn]
    exact Option.some_ne_none t
  -- a transaction that has taken no snapshot may be on whatever is committed now
  obtain ⟨base, rows, hbase, hrows, hseen⟩ : ∃ base rows, ShowsRows d.pgClass base rows ∧
      (∀ snap, t.snapshot = some snap → snap.rows = rows) ∧
      Through (TransactStep d code) (startOn d) tr p fun m ↦
        m.mem.cluster.txn i ≠ none ∧ m.mem.cluster.rows = rows := by
    cases hsnap : t.snapshot with
    | none =>
      obtain ⟨base, hbase⟩ := hwf.shown
      exact ⟨base, _, hbase, nofun, hrun.through ⟨hopen, rfl⟩⟩
    | some snap =>
      obtain ⟨⟨base, hbase⟩, hseen⟩ := h.pinned snap hsnap
      refine ⟨base, _, hbase, fun snap' hsnap' ↦ ?_, hseen⟩
      rw [Option.some.inj hsnap']
  obtain ⟨refusals, b, hops, hans, hcur, hb⟩ := h.mirrors.answers hbase hrows
  rw [← hbase.2] at hseen
  refine ⟨base, refusals, hbase.1, hops, hseen.snoc hstep, hans, hrun.crossed hstep ?_⟩
  rw [hcur]
  generalize p'.mem = m' at hr
  cases hr with
  | commit _ hend =>
    cases hend with
    | commit ht hab =>
      obtain rfl := Option.some.inj (h.txn.symm.trans ht)
      exact ⟨hopen, Cluster.commit_txn_self,
        Or.inl (Installs.of_commit hb hbase h.clean hrows hab)⟩
  | discard _ hwhy hend =>
    cases hend with
    | rollback =>
      refine ⟨hopen, Cluster.rollback_txn_self, ?_⟩
      obtain hab | hrefused := hwhy
      · left
        rw [hb.aborted, hab t h.txn, if_pos rfl]
        rfl
      · exact Or.inr ⟨hrefused, rfl⟩

end Acting

/-! ## The whole transaction -/

theorem Acting.stage {a : Async (List (Result Answer) × PgTransaction)}
    (h : Acting d code i write ops tr p conn t a)
    (hrun : Run (TransactStep d code) (startOn d) tr p)
    (hwf : p.mem.WellFormed (ShowsRows d.pgClass)) (hstep : TransactStep d code p e p') {q : DbReq}
    {u : Option Unit} {next : q.Answer → DbAsync Transacted} {r : q.Answer}
    (hr : Replies d.pgClass i p.mem q r p'.mem) (ha : onTx a >>= finish = .ask q u next) :
    TransactStage d code i write ops s (tr ++ [e]) p' (next r) := by
  cases a with
  | done res =>
    obtain ⟨rs, tx⟩ := res
    have hfinish : onTx (.done (rs, tx)) >>= finish = _ := finish_eq h.sends
    rw [hfinish] at ha
    cases ha
    obtain ⟨base, refusals, hisolated⟩ := h.commit hrun hwf hstep hr
    cases r with
    | ok _ => exact .ended hisolated
    | error _ => exact .ended hisolated
  | ask q' u' next' =>
    rw [onTx, Dialogue.embed_ask, Dialogue.ask_bind] at ha
    cases ha
    obtain ⟨hwrite, htorn⟩ | ⟨t', h'⟩ := h.answer hrun hwf hstep hr
    · exact .torn hwrite htorn
    · exact .acting h'

/-- **An answer** takes every transaction on. -/
theorem TransactStage.answer {x : DbAsync Transacted}
    (h : TransactStage d code i write ops s tr p x)
    (hlevel : s.isolationLevel.level.keepsSnapshot = true)
    (hrun : Run (TransactStep d code) (startOn d) tr p)
    (hwf : p.mem.WellFormed (ShowsRows d.pgClass)) (hstep : TransactStep d code p e p') {q : DbReq}
    {u : Option Unit} {next : q.Answer → DbAsync Transacted} {r : q.Answer}
    (hr : Replies d.pgClass i p.mem q r p'.mem) (hx : x = .ask q u next) :
    TransactStage d code i write ops s (tr ++ [e]) p' (next r) := by
  cases h with
  | @opening φ b hfollows hopen hmarks =>
    cases b with
    | done res =>
      cases φ with
      | counted =>
        obtain ⟨conn, rfl⟩ := hfollows
        -- the transaction is open, and has done nothing yet
        have hacting : Acting d code i write ops tr p conn (.begin s.isolationLevel.level)
            (PgTransaction.performAll ⟨some conn, write, 0, []⟩ ops) := {
          txn := hopen
          clean := ⟨hlevel, fun k hk ↦ absurd rfl hk⟩
          untouched := fun _ _ ↦ rfl
          pinned := nofun
          sends := PgTransaction.performAll_conn conn write ops
          mirrors := by
            rw [hmarks]
            exact mirrors_begin _ }
        exact hacting.stage hrun hwf hstep hr hx
      | outside | admitted =>
        obtain ⟨e, rfl⟩ := hfollows
        cases hx
      | connected | failed | begun | started => exact hfollows.elim
    | ask q' u' next' =>
      rw [Dialogue.embed_ask, Dialogue.ask_bind] at hx
      cases hx
      obtain ⟨hans, hmarks'⟩ := hr.cluster
      obtain ⟨φ', hφ', hopen'⟩ := hans.opening hfollows.1.1 hfollows.1.2 hopen
      exact .opening (hfollows.2 _ _ hφ') hopen' (hmarks' hmarks)
  | acting h => exact h.stage hrun hwf hstep hr hx
  | ended h =>
    cases hx
    exact .returned (h.snoc hstep)
  | returned h => cases hx
  | failed e => cases hx
  | torn hwrite h => exact .torn hwrite (h.snoc hstep)

/-- What holds in every run in which call `c` is a transaction of the store. -/
structure TransactInv (s : PgStore) (d : Database) (code : C → DbAsync Transacted) (i : ι) (c : C)
    (write : Bool) (ops : List Op) (tr : List (TransactEvent ι C)) (p : TransactPool ι C) :
    Prop where
  wellFormed : p.mem.WellFormed (ShowsRows d.pgClass)
  idle : p.task i = none → p.mem.cluster.txn i = none ∧ p.mem.marks i = []
  stage : ∀ x, p.task i = some (.live c x) → TransactStage d code i write ops s tr p x

theorem TransactInv.beside {c : C} (h : TransactInv s d code i c write ops tr p)
    (hstep : TransactStep d code p e p') (hwf : p'.mem.WellFormed (ShowsRows d.pgClass))
    (hb : Beside i p.mem p'.mem) (htask : p'.task i = p.task i) :
    TransactInv s d code i c write ops (tr ++ [e]) p' where
  wellFormed := hwf
  idle hi := by
    rw [htask] at hi
    rw [hb.txn, hb.marks]
    exact h.idle hi
  stage x hx := by
    rw [htask] at hx
    exact (h.stage x hx).beside hstep hb

theorem TransactInv.advance {c : C} {task : Task C (DbAsync Transacted)}
    {m : Branches ι Key Val} (hwf : m.WellFormed (ShowsRows d.pgClass))
    (hstage : ∀ x, task = .live c x →
      TransactStage d code i write ops s tr (p.advance i task m) x) :
    TransactInv s d code i c write ops tr (p.advance i task m) where
  wellFormed := hwf
  idle hi := by
    rw [Pool.advance_task_self] at hi
    cases hi
  stage x hx := by
    rw [Pool.advance_task_self] at hx
    exact hstage x (Option.some.inj hx)

theorem transactInv_of_run {c : C} (hlevel : s.isolationLevel.level.keepsSnapshot = true)
    (hcode : code c = transact s write ops)
    (hrun : Run (TransactStep d code) (startOn d) tr p) :
    TransactInv s d code i c write ops tr p := by
  induction hrun with
  | nil =>
    exact ⟨.quiet (d := d) ⟨rfl, rfl⟩, fun _ ↦ ⟨rfl, rfl⟩, fun x hx ↦ by cases hx⟩
  | @snoc tr p p' e hrun hstep ih =>
    have hsame : Beside i p.mem p.mem := ⟨⟨rfl, rfl⟩, fun _ _ ↦ id⟩
    cases hstep with
    | call j c' hj =>
      by_cases hij : i = j
      · subst hij
        obtain ⟨htxn, hmarks⟩ := ih.idle hj
        refine .advance ih.wellFormed fun x hx ↦ ?_
        cases hx
        rw [hcode]
        exact .opening ((s.begin_follows write).and_all (s.begin_sends write)) htxn hmarks
      · exact ih.beside (.call j c' hj) ih.wellFormed hsame (Pool.advance_task_of_ne _ _ _ hij)
    | @answer j c' q u next r m' hj hr =>
      have hwf : m'.WellFormed (ShowsRows d.pgClass) := hr.wellFormed ih.wellFormed
      have hstep : TransactStep d code p (.answered j q r) (p.advance j (.live c' (next r)) m') :=
        .answer j q r hj hr
      by_cases hij : i = j
      · subst hij
        refine .advance hwf fun x hx ↦ ?_
        cases hx
        exact (ih.stage _ hj).answer hlevel hrun ih.wellFormed hstep hr rfl
      · exact ih.beside hstep hwf (hr.beside ih.wellFormed hij) (Pool.advance_task_of_ne _ _ _ hij)
    | @abandon j c' q u next m' hj hun =>
      obtain ⟨effective, hend⟩ := hun
      have hwf : m'.WellFormed (ShowsRows d.pgClass) := ih.wellFormed.ends hend
      by_cases hij : i = j
      · subst hij
        refine .advance hwf fun x hx ↦ ?_
        cases hx
      · exact ih.beside (.abandon j q hj ⟨effective, hend⟩) hwf
          (beside_of_ends ih.wellFormed hend hij) (Pool.advance_task_of_ne _ _ _ hij)

/-- **A transaction that keeps its snapshot is isolated.** In every run, whatever the other calls
do, the operations of a transaction that has returned have answered as those of a draft begun on
contents that were committed at one moment of the transaction, and its commit has made the changes
of the draft, to rows that were still as at that moment. The only other possibility is that it
inserted a row which that moment still had and which was deleted since. -/
theorem transaction_isolated {c : C} {rs : List (Result Answer)} {r : Result Unit}
    (hlevel : s.isolationLevel.level.keepsSnapshot = true)
    (hcode : code c = transact s write ops)
    (hrun : Run (TransactStep d code) (startOn d) tr p) (hret : p.Returned i c (.ok (rs, r))) :
    (write = true ∧ WasTorn d code i tr p) ∨
      ∃ base refusals, Isolated d code i write ops tr p rs r.isOk base refusals := by
  have hstage : TransactStage d code i write ops s tr p (.done (.ok (rs, r))) :=
    (transactInv_of_run hlevel hcode hrun).stage _ hret
  generalize hx : (Dialogue.done (.ok (rs, r)) : DbAsync Transacted) = x at hstage
  cases hstage with
  | @opening φ b hfollows =>
    cases b with
    | done res =>
      cases φ with
      | counted =>
        obtain ⟨conn, rfl⟩ := hfollows
        exact absurd hx (finish_ne_done (PgTransaction.performAll_conn ..) _).symm
      | outside | admitted =>
        obtain ⟨e, rfl⟩ := hfollows
        cases hx
      | connected | failed | begun | started => exact hfollows.elim
    | ask q u next =>
      rw [Dialogue.embed_ask, Dialogue.ask_bind] at hx
      cases hx
  | acting h => exact absurd hx (finish_ne_done h.sends _).symm
  | ended h => cases hx
  | returned h =>
    cases hx
    exact Or.inr ⟨_, _, h⟩
  | failed e => cases hx
  | torn hwrite h => exact Or.inl ⟨hwrite, h⟩

theorem run_transact {c : C} {l : PgIsolation} {p₀ : TransactPool ι C}
    (h : Run (TransactStep d code) p₀ tr p) (hi : p.task i = none)
    (hcode : code c = transact (.withLevel l) write ops) :
    ∃ tr', Run (TransactStep d code) p₀ tr' (p.advance i
      (.live c (afterBegin ops (.ok (.newPooled write)))) (p.mem.put i (.begin l.level) [])) := by
  have h := h.called i c hi
  rw [hcode] at h
  have h := h.answered i (.store .loadShuttingDown) false _ (Pool.advance_task_self ..)
    (.store _ nofun)
  have h := h.answered i (.store .loadShuttingDown) false _ (Pool.advance_task_self ..)
    (.store _ nofun)
  have h := h.answered i (.store .acquire) (.ok ()) _ (Pool.advance_task_self ..) (.store _ nofun)
  have h := h.answered i (.store (.execute (PgStore.withLevel l).beginSql)) (.ok ()) _
    (Pool.advance_task_self ..) (.begin l.ofSql_asSql)
  have h := h.answered i (.store .addStarted) () _ (Pool.advance_task_self ..) (.store _ nofun)
  have h := h.answered i (.store .addActive) () _ (Pool.advance_task_self ..) (.store _ nofun)
  simp only [Pool.advance_advance] at h
  exact ⟨_, h⟩

end Runs

/-- A transaction reads a row twice, and another one writes it in between. -/
theorem transaction_isolated_repeats :
    let code : Bool → DbAsync Transacted := fun c ↦
      transact (.withLevel .repeatableRead) true
        (bif c then [.get [1], .get [1]] else [.set [1] [5]])
    ∃ tr, ∃ p : TransactPool Bool Bool, Run (TransactStep ⟨∅, []⟩ code) (startOn ⟨∅, []⟩) tr p ∧
      p.mem.cluster.rows [1] = some [5] ∧
      p.Returned true true (.ok ([.ok (.val none), .ok (.val none)], .ok ())) ∧
      ((true = true ∧ WasTorn ⟨∅, []⟩ code true tr p) ∨ ∃ base refusals,
        Isolated ⟨∅, []⟩ code true true [.get [1], .get [1]] tr p
          [.ok (.val none), .ok (.val none)] true base refusals) := by
  intro code
  let d : Database := ⟨∅, []⟩
  let d' : Database := ⟨(∅ : Table Key Val).upsert [1] [5], []⟩
  let w : Writes Key Val := fun k ↦ if k = [1] then some (some [5]) else none
  have hw : d'.kv.get? = w.onto d.kv.get? := by
    funext k
    by_cases hk : k = [1]
    · rw [hk, Table.get?_upsert_self]
      rfl
    · have hwk : w k = none := if_neg hk
      rw [Table.get?_upsert_of_ne _ _ hk, Writes.onto, hwk, Option.getD_none]
  have hwrites : ¬engine.Reads (.set [1] [5]) := by
    intro hreads
    have hrow := congrArg (fun d ↦ d.kv.get? [1]) (hreads d _ d' rfl)
    exact Option.some_ne_none _ hrow
  have h : Run (TransactStep d code) (startOn d : TransactPool Bool Bool) [] (startOn d) := .nil
  obtain ⟨tr, h⟩ := run_transact (i := true) (c := true) h rfl rfl
  have h := h.answered true (.tx (.sql (.run (.data (.get [1]))))) (.ok ⟨[], 0⟩) _ rfl
    (.run (.read (d := d) rfl rfl rfl (engine_reads rfl) ⟨rfl, rfl⟩ rfl))
  obtain ⟨tr, h⟩ := run_transact (i := false) (c := false) h rfl rfl
  have h := h.answered false (.tx (.sql (.run (.data (.set [1] [5]))))) (.ok ⟨[], 1⟩) _ rfl
    (.run (.write (d := d) (w := w) rfl rfl rfl hwrites ⟨rfl, rfl⟩ rfl
      ⟨fun _ _ ↦ rfl, fun k _ _ ↦ free_of_other fun t ht ↦ Option.some.inj ht ▸ rfl⟩
      (fun _ _ _ ↦ rfl) ⟨rfl, hw⟩))
  have h := h.answered false (.tx (.sql .commit)) (.ok ⟨[], 0⟩) _ rfl
    (.commit _ (.commit (d := d') rfl rfl ⟨rfl, hw⟩))
  have h := h.answered true (.tx (.sql (.run (.data (.get [1]))))) (.ok ⟨[], 0⟩) _ rfl
    (.run (.read (d := d) rfl rfl rfl (engine_reads rfl) ⟨rfl, rfl⟩ rfl))
  have h := h.answered true (.tx (.sql .commit)) (.ok ⟨[], 0⟩) _ rfl
    (.commit _ (.commit (d := d') rfl rfl ⟨rfl, hw⟩))
  have h := h.answered true (.tx .releaseActive) () _ rfl .release
  exact ⟨_, _, h, rfl, rfl, transaction_isolated (c := true) (r := .ok ()) rfl rfl h rfl⟩

end SurrealPg
