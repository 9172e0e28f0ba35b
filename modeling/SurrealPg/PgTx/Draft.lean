import SurrealPg.PgTx.MultiGet
import SurrealPg.Transaction.Batches
import SurrealPg.Transaction.Ledger
import SurrealPg.Transaction.Savepoints

/-!
# A transaction is a stack of maps

What a transaction is for can be said without a server: it has a map, which its operations read and
change, and below it the maps its savepoints keep. `Draft` is that, with one more possibility, that
the map is lost. It is lost when the server refuses a statement, and found again by rolling back to
a savepoint.

The operations of a transaction answer as those of the draft, for every pattern of refusals, and
what a commit makes permanent is the map of the draft, or nothing if it is lost. All that the draft
needs to be told is which refusal an operation met, if it met one.
-/

namespace SurrealPg

open Postgres Semantics

/-! ## The reference -/

/-- What a caller of a transaction may think of: the map it works on, `none` where that is lost,
and the maps its savepoints keep, most recent first. -/
structure Draft where
  cur : Option Contents
  saved : List Contents

/-- What a call answers on the contents `m`, in the answers of the inner transaction. -/
noncomputable def KvCall.onMap (m : Contents) (call : KvCall) : Result Answer × Contents :=
  ((call.reference m).1.map KvAnswer.answer, (call.reference m).2)

namespace Op

/-- What an operation answers on the contents `m`, and the contents it leaves. The savepoint
operations are no operations on contents. -/
noncomputable def reference (catalog : List (String × ℤ)) (m : Contents) :
    Op → Result Answer × Contents
  | .exists key => (KvCall.exists key).onMap m
  | .get key => (KvCall.get key).onMap m
  | .getm ks => (.ok (.vals (ks.map m.get)), m)
  | .set key val => (KvCall.set key val).onMap m
  | .setm _ pairs => (.ok .unit, pairs.foldl (fun m p ↦ m.insert p.1 p.2) m)
  | .put key val => (KvCall.put key val).onMap m
  | .putc key val chk =>
    if m.get key = chk then (.ok .unit, m.insert key val) else (.error (putcError key chk), m)
  | .del key => (KvCall.del key).onMap m
  | .delc key chk =>
    if chk = none ∨ m.get key = chk then (.ok .unit, m.erase key)
    else (.error (.conditionNotMet key), m)
  | .delr start stop => (KvCall.delr start stop).onMap m
  | .keys start stop limit skip => (KvCall.keys start stop limit skip).onMap m
  | .keysr start stop limit skip => (KvCall.keysr start stop limit skip).onMap m
  | .scan start stop limit skip => (KvCall.scan start stop limit skip).onMap m
  | .scanr start stop limit skip => (KvCall.scanr start stop limit skip).onMap m
  | .getr start stop => (KvCall.getr start stop).onMap m
  | .count start stop => (KvCall.count start stop).onMap m
  | .countApprox tableName =>
    (.ok (.countApprox ((catalog.filter fun r ↦ r.1 = tableName ∧ 0 ≤ r.2).head?.map
      fun r ↦ r.2.toNat)), m)
  | .newSavePoint | .releaseLastSavePoint | .rollbackToSavePoint => (.ok .unit, m)

/-- What an operation returns where it has no need of the server: a write that is not allowed, an
empty range, an empty list, no savepoint to go back to. -/
def unasked (write noSavepoint : Bool) : Op → Option (Result Answer)
  | .set .. | .put .. | .putc .. | .del .. | .delc .. =>
    if write then none else some (.error .txReadOnly)
  | .setm _ pairs =>
    if !write then some (.error .txReadOnly) else if pairs = [] then some (.ok .unit) else none
  | .delr start stop =>
    if !write then some (.error .txReadOnly) else if stop ≤ start then some (.ok .unit) else none
  | .getm ks => if ks = [] then some (.ok (.vals [])) else none
  | .keys start stop _ _ | .keysr start stop _ _ =>
    if stop ≤ start then some (.ok (.keys [])) else none
  | .scan start stop _ _ | .scanr start stop _ _ | .getr start stop =>
    if stop ≤ start then some (.ok (.pairs [])) else none
  | .count start stop => if stop ≤ start then some (.ok (.count 0)) else none
  | .releaseLastSavePoint | .rollbackToSavePoint => if noSavepoint then some (.ok .unit) else none
  | .exists _ | .get _ | .countApprox _ | .newSavePoint => none

/-- The key under which an operation maps the error of a driver. -/
def keyForErr : Op → Option Key
  | .exists key | .get key | .set key _ | .put key _ | .putc key _ _ | .del key | .delc key _ =>
    some key
  | _ => none

end Op

namespace Draft

/-- The draft of a transaction just begun on the contents `m`. -/
def begun (m : Contents) : Draft := ⟨some m, []⟩

/-- What an operation does that the server answers; on a lost map it answers a rollback only. -/
noncomputable def answered (catalog : List (String × ℤ)) (s : Draft) :
    Op → Option (Result Answer × Draft)
  | .newSavePoint => s.cur.map fun m ↦ (.ok .unit, { s with saved := m :: s.saved })
  | .releaseLastSavePoint => s.cur.map fun _ ↦ (.ok .unit, { s with saved := s.saved.tail })
  | .rollbackToSavePoint => s.saved.head?.map fun m ↦ (.ok .unit, ⟨some m, s.saved.tail⟩)
  | op => s.cur.map fun m ↦
    ((op.reference catalog m).1, { s with cur := some (op.reference catalog m).2 })

/-- One operation, in which the server refused a statement or did not. -/
noncomputable def perform (write : Bool) (catalog : List (String × ℤ)) (s : Draft)
    (op : Op × Option SqlxError) : Result Answer × Draft :=
  match op.1.unasked write s.saved.isEmpty with
  | some r => (r, s)
  | none =>
    match op.2, s.answered catalog op.1 with
    | none, some r => r
    | some e, _ => (.error (.fromSqlx op.1.keyForErr e), { s with cur := none })
    | none, none => (.error (.fromSqlx op.1.keyForErr engine.inFailed), { s with cur := none })

end Draft

/-! ## Which refusals an operation met -/

section

variable (faults : ℕ → Option SqlxError)

/-- The first refusal among the next `k` commands from the `n`-th on. -/
def firstRefusal (n : ℕ) : ℕ → Option SqlxError
  | 0 => none
  | k + 1 => (faults n).or (firstRefusal (n + 1) k)

/-- The refusal that an operation performed on `c` meets. -/
def Client.refusal (c : Client) (op : Op) : Option SqlxError :=
  firstRefusal faults c.wire.sent ((c.perform faults op).2.wire.sent - c.wire.sent)

/-- Operations performed one after another, each with the refusal it meets. -/
def Client.refusals : Client → List Op → List (Op × Option SqlxError)
  | _, [] => []
  | c, op :: ops => (op, c.refusal faults op) :: Client.refusals (c.perform faults op).2 ops

end

/-! ## What a transaction shows of its draft -/

/-- An open transaction begun on the committed contents `base`, in the block `b`, which is what the
draft says: the map it sees, unless it is aborted, and the maps its savepoints keep. -/
structure Client.Shows (conn : TxConn) (base : Database) (c : Client) (s : Draft)
    (b : Block Database) : Prop where
  conn : c.tx.conn = some conn
  session : c.wire.session = .inBlock b
  begun : b.base = base
  names : b.marks.map Prod.fst = c.tx.savepoints
  saved : b.marks.map (fun m ↦ m.2.kv.toMap) = s.saved
  cur : (if b.aborted then none else some b.cur.kv.toMap) = s.cur
  /-- Nothing touches the catalog. -/
  catalog : b.cur.pgClass = base.pgClass ∧ ∀ m ∈ b.marks, m.2.pgClass = base.pgClass

/-- The operation answers as that of the draft, and shows the draft it leaves. -/
def Client.Agrees (faults : ℕ → Option SqlxError) (conn : TxConn) (base : Database) (c : Client)
    (s : Draft) (op : Op) : Prop :=
  let r := s.perform c.tx.writeable base.pgClass (op, c.refusal faults op)
  (c.perform faults op).1 = r.1 ∧ (c.perform faults op).2.tx.writeable = c.tx.writeable ∧
    ∃ b, (c.perform faults op).2.Shows conn base r.2 b

section

variable {faults : ℕ → Option SqlxError} {conn : TxConn} {base : Database} {c : Client}
  {s : Draft} {b : Block Database} {op : Op} {tx : PgTransaction}

theorem Client.Shows.isEmpty_saved (h : c.Shows conn base s b) :
    s.saved.isEmpty = c.tx.savepoints.isEmpty := by
  rw [← h.saved, ← h.names, List.isEmpty_map, List.isEmpty_map]

theorem Client.agrees_of {r : Result Answer} {c' : Client} {s' : Draft} {k : ℕ}
    (hperform : c.perform faults op = (r, c')) (hsent : c'.wire.sent = c.wire.sent + k)
    (hdraft : s.perform c.tx.writeable base.pgClass (op, firstRefusal faults c.wire.sent k) =
      (r, s')) (hwrite : c'.tx.writeable = c.tx.writeable) (h : c'.Shows conn base s' b) :
    c.Agrees faults conn base s op := by
  rw [Agrees, refusal, hperform, hsent, Nat.add_sub_cancel_left, hdraft]
  exact ⟨rfl, hwrite, b, h⟩

/-! ## Without the server -/

theorem Op.run_of_unasked {r : Result Answer} (hconn : tx.conn = some conn)
    (h : op.unasked tx.writeable tx.savepoints.isEmpty = some r) : op.run tx = pure (r, tx) := by
  obtain ⟨_, write, counter, names⟩ := tx
  obtain rfl := hconn
  cases op with
  | «exists» | get | countApprox | newSavePoint => cases h
  | set | put | putc | del | delc =>
    cases write with
    | true => cases h
    | false =>
      obtain rfl := Option.some.inj h
      rfl
  | getm ks =>
    rw [unasked] at h
    split_ifs at h with hks
    obtain rfl := Option.some.inj h
    rw [hks]
    rfl
  | setm o pairs =>
    cases write with
    | true =>
      rw [unasked] at h
      split_ifs at h with hw hpairs
      · exact absurd hw Bool.false_ne_true
      · obtain rfl := Option.some.inj h
        rw [hpairs]
        rfl
    | false =>
      obtain rfl := Option.some.inj h
      rfl
  | delr start stop =>
    cases write with
    | true =>
      rw [unasked] at h
      split_ifs at h with hw hle
      · exact absurd hw Bool.false_ne_true
      · obtain rfl := Option.some.inj h
        simp only [run, keeping, PgTransaction.delr, PgTransaction.checkWriteable]
        rw [if_neg (by simp)]
        dsimp only
        rw [if_pos hle]
        rfl
    | false =>
      obtain rfl := Option.some.inj h
      rfl
  | keys start stop | keysr start stop | scan start stop | scanr start stop =>
    rw [unasked] at h
    split_ifs at h with hle
    obtain rfl := Option.some.inj h
    simp only [run, keeping, PgTransaction.keys, PgTransaction.keysr, PgTransaction.scan,
      PgTransaction.scanr, PgTransaction.rangeQueryOffset, if_pos hle]
    rfl
  | getr start stop | count start stop =>
    rw [unasked] at h
    split_ifs at h with hle
    obtain rfl := Option.some.inj h
    simp only [run, keeping, PgTransaction.getr, PgTransaction.count, if_pos hle]
    rfl
  | releaseLastSavePoint | rollbackToSavePoint =>
    cases names with
    | nil =>
      obtain rfl := Option.some.inj h
      rfl
    | cons name names => cases h

theorem Client.Shows.agrees_of_unasked {r : Result Answer} (h : c.Shows conn base s b)
    (hr : op.unasked c.tx.writeable s.saved.isEmpty = some r) :
    c.Agrees faults conn base s op := by
  have hrun : op.run c.tx = pure (r, c.tx) := by
    rw [h.isEmpty_saved] at hr
    exact Op.run_of_unasked h.conn hr
  have hperform : c.perform faults op = (r, c) := by
    rw [perform, hrun]
    rfl
  exact agrees_of (k := 0) hperform rfl (by rw [Draft.perform, hr]) rfl h

/-! ## One statement -/

/-- Why a block refuses a statement that is in order: for the server's own reason, or because it is
aborted. -/
def Block.refusal (b : Block Database) (refusal : Option SqlxError) : Option SqlxError :=
  refusal.or (if b.aborted then some engine.inFailed else none)

theorem Block.refusal_eq_none_iff {refusal : Option SqlxError} :
    Block.refusal b refusal = none ↔ refusal = none ∧ b.aborted = false := by
  rw [Block.refusal, Option.or_eq_none_iff]
  cases b.aborted <;> simp

variable (faults) in
theorem PgTransaction.query_eval_refusable {α : Type} {w : Wire} {stmt : Stmt}
    (key : Option Key) (decode : Reply → Result α) (hconn : tx.conn = some conn)
    (hw : w.session = .inBlock b) {p : Reply} {d : Database}
    (hexec : stmt.exec b.cur = .ok (p, d)) :
    (tx.query stmt key decode).eval (Wire.answer faults) w =
      match Block.refusal b (faults w.sent) with
      | some e =>
        (.error (.fromSqlx key e), ⟨.inBlock { b with aborted := true }, w.sent + 1⟩)
      | none => (decode p, ⟨.inBlock { b with cur := d }, w.sent + 1⟩) := by
  rw [query, hconn]
  simp only [sendCommand, Dialogue.ask_bind, Dialogue.done_bind, Dialogue.eval_ask,
    Wire.answer_run hw, Block.run, Block.attempt, engine_exec, hexec, Block.refusal]
  cases faults w.sent with
  | some e => rfl
  | none =>
    cases hab : b.aborted with
    | true => rfl
    | false => simp [Except.map]

/-- The operation is one statement, which does to the table and returns what the reference says. -/
structure Op.IsQuery (op : Op) (tx : PgTransaction) (stmt : Stmt)
    (decode : Reply → Result Answer) : Prop where
  run : op.run tx = (fun r ↦ (r, tx)) <$> tx.query stmt op.keyForErr decode
  exec : ∀ d : Database, ∃ p d', stmt.exec d = .ok (p, d') ∧ d'.pgClass = d.pgClass ∧
    (decode p, d'.kv.toMap) = op.reference d.pgClass d.kv.toMap

theorem Draft.answered_of_not_isSavepoint (catalog : List (String × ℤ)) (s : Draft)
    (hop : op.isSavepoint = false) : s.answered catalog op = s.cur.map fun m ↦
      ((op.reference catalog m).1, { s with cur := some (op.reference catalog m).2 }) := by
  cases op <;> first | rfl | exact absurd hop Bool.true_eq_false.mp

theorem Client.Shows.lost (h : c.Shows conn base s b) (d : Database)
    (hd : d.pgClass = base.pgClass) {tx : PgTransaction} (hconn : tx.conn = some conn)
    (hnames : tx.savepoints = c.tx.savepoints) (n : ℕ) :
    (Client.mk tx ⟨.inBlock { b with cur := d, aborted := true }, n⟩).Shows conn base
      { s with cur := none } { b with cur := d, aborted := true } where
  conn := hconn
  session := rfl
  begun := h.begun
  names := h.names.trans hnames.symm
  saved := h.saved
  cur := if_pos rfl
  catalog := ⟨hd, h.catalog.2⟩

theorem Client.Shows.edited (h : c.Shows conn base s b) (d : Database)
    (hd : d.pgClass = base.pgClass) (hab : b.aborted = false) (n : ℕ) :
    (Client.mk c.tx ⟨.inBlock { b with cur := d }, n⟩).Shows conn base
      { s with cur := some d.kv.toMap } { b with cur := d } where
  conn := h.conn
  session := rfl
  begun := h.begun
  names := h.names
  saved := h.saved
  cur := by rw [hab, if_neg Bool.false_ne_true]
  catalog := ⟨hd, h.catalog.2⟩

theorem firstRefusal_one (faults : ℕ → Option SqlxError) (n : ℕ) :
    firstRefusal faults n 1 = faults n := Option.or_none

/-- What the draft answers where the server is asked. -/
theorem Client.Shows.perform_eq (h : c.Shows conn base s b) (hop : op.isSavepoint = false)
    (hask : op.unasked c.tx.writeable s.saved.isEmpty = none) (refusal : Option SqlxError) :
    s.perform c.tx.writeable base.pgClass (op, refusal) =
      match Block.refusal b refusal with
      | some e => (.error (.fromSqlx op.keyForErr e), { s with cur := none })
      | none => ((op.reference base.pgClass b.cur.kv.toMap).1,
          { s with cur := some (op.reference base.pgClass b.cur.kv.toMap).2 }) := by
  rw [Draft.perform, hask, Draft.answered_of_not_isSavepoint _ _ hop, ← h.cur, Block.refusal]
  cases refusal with
  | some e => rfl
  | none => cases b.aborted <;> rfl

/-- **An operation that is one statement** agrees with the draft. -/
theorem Client.Shows.agrees_of_query (h : c.Shows conn base s b) (hop : op.isSavepoint = false)
    (hask : op.unasked c.tx.writeable s.saved.isEmpty = none) {stmt : Stmt}
    {decode : Reply → Result Answer} (hq : op.IsQuery c.tx stmt decode) :
    c.Agrees faults conn base s op := by
  obtain ⟨p, d, hexec, hcatalog, href⟩ := hq.exec b.cur
  rw [h.catalog.1] at hcatalog href
  have heval := PgTransaction.query_eval_refusable faults op.keyForErr decode h.conn h.session hexec
  have hdraft := h.perform_eq hop hask (firstRefusal faults c.wire.sent 1)
  rw [← firstRefusal_one faults] at heval
  cases hrefusal : Block.refusal b (firstRefusal faults c.wire.sent 1) with
  | some e =>
    rw [hrefusal] at heval hdraft
    have hperform : c.perform faults op = (.error (.fromSqlx op.keyForErr e),
        ⟨c.tx, ⟨.inBlock { b with aborted := true }, c.wire.sent + 1⟩⟩) := by
      rw [perform, hq.run, Dialogue.eval_map, heval]
    exact agrees_of hperform rfl hdraft rfl (h.lost b.cur h.catalog.1 h.conn rfl _)
  | none =>
    rw [hrefusal] at heval hdraft
    have hperform : c.perform faults op =
        (decode p, ⟨c.tx, ⟨.inBlock { b with cur := d }, c.wire.sent + 1⟩⟩) := by
      rw [perform, hq.run, Dialogue.eval_map, heval]
    rw [← href] at hdraft
    exact agrees_of hperform rfl hdraft rfl
      (h.edited d hcatalog (Block.refusal_eq_none_iff.mp hrefusal).2 _)

theorem keeping_query {α : Type} (g : α → Answer) (stmt : Stmt) (key : Option Key)
    (decode : Reply → Result α) : keeping tx g (tx.query stmt key decode) =
      (fun r ↦ (r, tx)) <$> tx.query stmt key fun p ↦ (decode p).map g := by
  rw [keeping, PgTransaction.query, PgTransaction.query]
  cases tx.conn with
  | none => rfl
  | some conn =>
    refine congrArg (Dialogue.ask _ _) (funext fun r ↦ ?_)
    cases r <;> rfl

theorem Op.isQuery_of {α : Type} {f : Async (Result α)} {stmt : Stmt} {decode : Reply → Result α}
    (g : α → Answer) (hrun : op.run tx = keeping tx g f)
    (hf : f = tx.query stmt op.keyForErr decode)
    (hexec : ∀ d : Database, ∃ p d', stmt.exec d = .ok (p, d') ∧ d'.pgClass = d.pgClass ∧
      ((decode p).map g, d'.kv.toMap) = op.reference d.pgClass d.kv.toMap) :
    ∃ stmt decode, op.IsQuery tx stmt decode :=
  ⟨stmt, _, by rw [hrun, hf, keeping_query], hexec⟩

theorem foldl_insert_toMap (t : Table Key Val) (pairs : List (Key × Val)) :
    (t.upsertAll pairs).toMap = pairs.foldl (fun m p ↦ m.insert p.1 p.2) t.toMap := by
  induction pairs generalizing t with
  | nil => rfl
  | cons p pairs ih => rw [Table.upsertAll_cons, ih, Table.toMap_upsert, List.foldl_cons]

theorem PgTransaction.rangeQueryOffset_of_lt {α : Type} (hconn : tx.conn = some conn) {stmt : Stmt}
    {start stop : Key} (hlt : ¬stop ≤ start) (decode : List Row → List α) :
    tx.rangeQueryOffset stmt start stop decode =
      tx.query stmt none fun r ↦ .ok (decode r.rows) := by
  rw [rangeQueryOffset, hconn]
  exact if_neg hlt

/-! ### Operations that are one statement -/

namespace Op

theorem isQuery_exists (key : Key) : ∃ stmt decode, (Op.exists key).IsQuery tx stmt decode := by
  refine isQuery_of .bool rfl rfl fun d ↦ ⟨_, _, rfl, rfl, ?_⟩
  simp only [reference, KvCall.onMap, KvCall.reference, Table.get_toMap]
  cases d.kv.get? key <;> rfl

theorem isQuery_get (key : Key) : ∃ stmt decode, (Op.get key).IsQuery tx stmt decode := by
  refine isQuery_of .val rfl rfl fun d ↦ ⟨_, _, rfl, rfl, ?_⟩
  simp only [reference, KvCall.onMap, KvCall.reference, Table.get_toMap]
  cases d.kv.get? key <;> rfl

theorem isQuery_getm {ks : List Key} (hks : ks ≠ []) :
    ∃ stmt decode, (Op.getm ks).IsQuery tx stmt decode := by
  refine isQuery_of .vals rfl (if_neg (by simpa using hks)) fun d ↦ ⟨_, _, rfl, rfl, ?_⟩
  exact Prod.ext (congrArg (fun vs ↦ Except.ok (Answer.vals vs))
    (collectValues_of_perm (List.Perm.refl _))) rfl

section

variable (hw : tx.writeable = true)

include hw

theorem isQuery_set (key : Key) (val : Val) :
    ∃ stmt decode, (Op.set key val).IsQuery tx stmt decode := by
  refine isQuery_of _ rfl (PgTransaction.writeQuery_of_writeable hw _ _ _)
    fun d ↦ ⟨_, _, rfl, rfl, ?_⟩
  exact Prod.ext rfl (Table.toMap_upsert _ _ _)

theorem isQuery_put (key : Key) (val : Val) :
    ∃ stmt decode, (Op.put key val).IsQuery tx stmt decode := by
  refine isQuery_of _ rfl (PgTransaction.writeQuery_of_writeable hw _ _ _) fun d ↦ ?_
  by_cases hk : d.kv.get? key = none
  · refine ⟨_, _, if_neg (by rw [hk]; exact Bool.false_ne_true), rfl, ?_⟩
    have href : (KvCall.put key val).reference d.kv.toMap =
      (.ok .unit, d.kv.toMap.insert key val) := if_pos hk
    rw [reference, KvCall.onMap, href, ← Table.toMap_upsert]
    rfl
  · refine ⟨_, _, if_pos (Option.isSome_iff_ne_none.mpr hk), rfl, ?_⟩
    have href : (KvCall.put key val).reference d.kv.toMap =
      (.error (.keyAlreadyExists key), d.kv.toMap) := if_neg hk
    rw [reference, KvCall.onMap, href]
    rfl

theorem isQuery_putc (key : Key) (val : Val) (chk : Option Val) :
    ∃ stmt decode, (Op.putc key val chk).IsQuery tx stmt decode := by
  cases chk with
  | none =>
    refine isQuery_of _ rfl (PgTransaction.putc_none_of_writeable hw key val) fun d ↦ ?_
    by_cases hk : d.kv.get? key = none
    · refine ⟨_, _, if_neg (by rw [hk]; exact Bool.false_ne_true), rfl, ?_⟩
      rw [reference, if_pos (c := d.kv.toMap.get key = none) hk]
      exact Prod.ext rfl (Table.toMap_upsert _ _ _)
    · refine ⟨_, _, if_pos (Option.isSome_iff_ne_none.mpr hk), rfl, ?_⟩
      exact (if_neg hk).symm
  | some expected =>
    refine isQuery_of _ rfl (PgTransaction.putc_some_of_writeable hw key val expected) fun d ↦ ?_
    by_cases hk : d.kv.get? key = some expected
    · refine ⟨_, _, if_pos hk, rfl, ?_⟩
      rw [reference, if_pos (c := d.kv.toMap.get key = some expected) hk]
      exact Prod.ext rfl (Table.toMap_upsert _ _ _)
    · refine ⟨_, _, if_neg hk, rfl, ?_⟩
      exact (if_neg hk).symm

theorem isQuery_del (key : Key) : ∃ stmt decode, (Op.del key).IsQuery tx stmt decode := by
  refine isQuery_of _ rfl (PgTransaction.writeQuery_of_writeable hw _ _ _)
    fun d ↦ ⟨_, _, rfl, rfl, ?_⟩
  exact Prod.ext rfl (Table.toMap_erase _ _)

theorem isQuery_delc (key : Key) (chk : Option Val) :
    ∃ stmt decode, (Op.delc key chk).IsQuery tx stmt decode := by
  cases chk with
  | none =>
    refine isQuery_of _ rfl (PgTransaction.delc_none_of_writeable hw key)
      fun d ↦ ⟨_, _, rfl, rfl, ?_⟩
    rw [reference, if_pos (Or.inl rfl)]
    exact Prod.ext rfl (Table.toMap_erase _ _)
  | some expected =>
    refine isQuery_of _ rfl (PgTransaction.delc_some_of_writeable hw key expected) fun d ↦ ?_
    by_cases hk : d.kv.get? key = some expected
    · refine ⟨_, _, if_pos hk, rfl, ?_⟩
      rw [reference, if_pos (Or.inr (b := d.kv.toMap.get key = some expected) hk)]
      exact Prod.ext rfl (Table.toMap_erase _ _)
    · refine ⟨_, _, if_neg hk, rfl, ?_⟩
      exact (if_neg (not_or.mpr ⟨Option.some_ne_none _, hk⟩)).symm

theorem isQuery_delr {start stop : Key} (hlt : ¬stop ≤ start) :
    ∃ stmt decode, (Op.delr start stop).IsQuery tx stmt decode := by
  have hquery : tx.delr start stop = tx.query (.delr start stop) none fun _ ↦ .ok () := by
    rw [PgTransaction.delr, PgTransaction.checkWriteable, hw]
    exact if_neg hlt
  refine isQuery_of _ rfl hquery fun d ↦ ⟨_, _, rfl, rfl, ?_⟩
  refine Prod.ext rfl (Table.toMap_filter _ fun k ↦ ?_)
  rw [Bool.not_eq_true', ← Bool.not_eq_true, inRange_iff]

end

section

variable {start stop : Key} (hlt : ¬stop ≤ start)

include hlt

theorem isQuery_getr : ∃ stmt decode, (Op.getr start stop).IsQuery tx stmt decode := by
  refine isQuery_of .pairs rfl (if_neg hlt) fun d ↦ ⟨_, _, rfl, rfl, ?_⟩
  refine Prod.ext (congrArg (fun ps ↦ Except.ok (Answer.pairs ps)) ?_) rfl
  rw [rowsToPairs_map, rangeRows_eq_between]

theorem isQuery_count : ∃ stmt decode, (Op.count start stop).IsQuery tx stmt decode := by
  refine isQuery_of .count rfl (if_neg hlt) fun d ↦ ⟨_, _, rfl, rfl, ?_⟩
  refine Prod.ext (congrArg (fun n ↦ Except.ok (Answer.count n)) ?_) rfl
  rw [← rangeRows_eq_between]
  rfl

variable (hconn : tx.conn = some conn) (limit skip : UInt32)

include hconn

theorem isQuery_keys : ∃ stmt decode, (Op.keys start stop limit skip).IsQuery tx stmt decode := by
  refine isQuery_of .keys rfl (PgTransaction.rangeQueryOffset_of_lt hconn hlt _)
    fun d ↦ ⟨_, _, rfl, rfl, ?_⟩
  refine Prod.ext (congrArg (fun ks ↦ Except.ok (Answer.keys ks)) ?_) rfl
  rw [rowsToKeys_page, rangeRows_eq_between]

theorem isQuery_keysr :
    ∃ stmt decode, (Op.keysr start stop limit skip).IsQuery tx stmt decode := by
  refine isQuery_of .keys rfl (PgTransaction.rangeQueryOffset_of_lt hconn hlt _)
    fun d ↦ ⟨_, _, rfl, rfl, ?_⟩
  refine Prod.ext (congrArg (fun ks ↦ Except.ok (Answer.keys ks)) ?_) rfl
  rw [rowsToKeys_page, rangeRows_eq_between, List.map_reverse]

theorem isQuery_scan : ∃ stmt decode, (Op.scan start stop limit skip).IsQuery tx stmt decode := by
  refine isQuery_of .pairs rfl (PgTransaction.rangeQueryOffset_of_lt hconn hlt _)
    fun d ↦ ⟨_, _, rfl, rfl, ?_⟩
  refine Prod.ext (congrArg (fun ps ↦ Except.ok (Answer.pairs ps)) ?_) rfl
  rw [rowsToPairs_map, rangeRows_eq_between, page]

theorem isQuery_scanr :
    ∃ stmt decode, (Op.scanr start stop limit skip).IsQuery tx stmt decode := by
  refine isQuery_of .pairs rfl (PgTransaction.rangeQueryOffset_of_lt hconn hlt _)
    fun d ↦ ⟨_, _, rfl, rfl, ?_⟩
  refine Prod.ext (congrArg (fun ps ↦ Except.ok (Answer.pairs ps)) ?_) rfl
  rw [rowsToPairs_map, rangeRows_eq_between, page]

end

theorem isQuery_countApprox (tableName : String) :
    ∃ stmt decode, (Op.countApprox tableName).IsQuery tx stmt decode := by
  refine isQuery_of .countApprox rfl rfl fun d ↦ ⟨_, _, rfl, rfl, ?_⟩
  refine Prod.ext (congrArg (fun n ↦ Except.ok (Answer.countApprox n)) ?_) rfl
  rw [List.head?_map, Option.map_map]
  rfl

end Op

/-- **Every other key-value operation that asks the server** is one statement. -/
theorem Op.exists_isQuery {noSavepoint : Bool} (hconn : tx.conn = some conn)
    (hop : op.isSavepoint = false) (hset : ∀ o pairs, op ≠ .setm o pairs)
    (hask : op.unasked tx.writeable noSavepoint = none) :
    ∃ stmt decode, op.IsQuery tx stmt decode := by
  -- what is asked of the server was not answered before for lack of a right to write
  have hwrite : ∀ {r : Option (Result Answer)},
      (if tx.writeable then r else some (.error .txReadOnly)) = none → tx.writeable = true := by
    intro r h
    by_contra hw
    cases (if_neg hw).symm.trans h
  -- nor because there is nothing in the range
  have hrange : ∀ {start stop : Key} {r : Result Answer},
      (if stop ≤ start then some r else none) = none → ¬stop ≤ start := by
    intro start stop r h hle
    cases (if_pos hle).symm.trans h
  cases op with
  | «exists» key => exact isQuery_exists key
  | get key => exact isQuery_get key
  | getm ks =>
    rw [unasked] at hask
    split_ifs at hask with hks
    exact isQuery_getm hks
  | set key val => exact isQuery_set (hwrite hask) key val
  | setm o pairs => exact absurd rfl (hset o pairs)
  | put key val => exact isQuery_put (hwrite hask) key val
  | putc key val chk => exact isQuery_putc (hwrite hask) key val chk
  | del key => exact isQuery_del (hwrite hask) key
  | delc key chk => exact isQuery_delc (hwrite hask) key chk
  | delr start stop =>
    rw [unasked] at hask
    split_ifs at hask with hw hle
    exact isQuery_delr (by simpa using hw) hle
  | keys start stop limit skip => exact isQuery_keys (hrange hask) hconn limit skip
  | keysr start stop limit skip => exact isQuery_keysr (hrange hask) hconn limit skip
  | scan start stop limit skip => exact isQuery_scan (hrange hask) hconn limit skip
  | scanr start stop limit skip => exact isQuery_scanr (hrange hask) hconn limit skip
  | getr start stop => exact isQuery_getr (hrange hask)
  | count start stop => exact isQuery_count (hrange hask)
  | countApprox tableName => exact isQuery_countApprox tableName
  | newSavePoint | releaseLastSavePoint | rollbackToSavePoint =>
    exact absurd hop Bool.true_eq_false.mp

/-! ## Batch writes -/

/-- A batch write ends with a refusal, having written some of the pairs, or it ends with `d`. -/
def EndsWith (b : Block Database) (d : Database) (r : Result Unit × Wire) :
    Option SqlxError → Prop
  | some e => r.1 = .error (.fromSqlx none e) ∧ ∃ cur : Database, cur.pgClass = b.cur.pgClass ∧
      r.2.session = .inBlock { b with cur := cur, aborted := true }
  | none => r.1 = .ok () ∧ r.2.session = .inBlock { b with cur := d }

variable (faults) in
theorem setmBatch_endsWith {w : Wire} (hconn : tx.conn = some conn) (hw : w.session = .inBlock b)
    {batch : List (Key × Val)} (hn : (batch.map Prod.fst).Nodup) :
    ∃ r, (tx.setmBatch batch).eval (Wire.answer faults) w = r ∧ r.2.sent = w.sent + 1 ∧
      EndsWith b (b.cur.writeAll batch) r (Block.refusal b (faults w.sent)) := by
  have hzip : batch = (batch.map Prod.fst).zip (batch.map Prod.snd) := List.zip_of_prod rfl rfl
  have hexec : (Stmt.setm (batch.map Prod.fst) (batch.map Prod.snd)).exec b.cur =
      .ok (⟨[], (batch.map Prod.fst).length⟩, b.cur.writeAll batch) := by
    rw [Database.writeAll]
    conv_rhs => rw [hzip]
    simp [Stmt.exec, hn]
    rfl
  refine ⟨_, rfl, ?_⟩
  rw [PgTransaction.setmBatch, PgTransaction.query_eval_refusable faults _ _ hconn hw hexec]
  cases Block.refusal b (faults w.sent) with
  | some e => exact ⟨rfl, rfl, b.cur, rfl, rfl⟩
  | none => exact ⟨rfl, rfl, rfl⟩

theorem setmChunks_endsWith (hconn : tx.conn = some conn) (pairs : List (Key × Val)) :
    ∀ {w : Wire} {b : Block Database}, w.session = .inBlock b → (pairs.map Prod.fst).Nodup →
      pairs ≠ [] ∨ b.aborted = false →
      ∃ r k, (tx.setmChunks pairs).eval (Wire.answer faults) w = r ∧ r.2.sent = w.sent + k ∧
        EndsWith b (b.cur.writeAll pairs) r (Block.refusal b (firstRefusal faults w.sent k)) := by
  induction pairs using PgTransaction.setmChunks.induct with
  | case1 =>
    intro w b hw _ hab
    have hab := hab.resolve_left fun hne ↦ hne rfl
    refine ⟨(.ok (), w), 0, ?_, rfl, ?_⟩
    · rw [PgTransaction.setmChunks, dif_pos rfl]
      rfl
    · rw [firstRefusal, Block.refusal_eq_none_iff.mpr ⟨rfl, hab⟩]
      exact ⟨rfl, hw⟩
  | case2 pairs hne ih =>
    intro w b hw hn _
    have hcut : ((pairs.take SETM_MAX_PAIRS).map Prod.fst).Nodup :=
      ((List.take_sublist _ _).map _).nodup hn
    obtain ⟨⟨r₁, w₁⟩, heval₁, hsent₁, hend₁⟩ :=
      setmBatch_endsWith faults hconn hw hcut
    rw [PgTransaction.setmChunks, dif_neg hne, Dialogue.eval_bind, heval₁]
    cases hrefusal : Block.refusal b (faults w.sent) with
    | some e =>
      rw [hrefusal] at hend₁
      obtain ⟨rfl, hlost⟩ := hend₁
      refine ⟨_, 1, rfl, hsent₁, ?_⟩
      rw [firstRefusal_one, hrefusal]
      exact ⟨rfl, hlost⟩
    | none =>
      rw [hrefusal] at hend₁
      obtain ⟨rfl, hw₁⟩ := hend₁
      obtain ⟨hf, hab⟩ := Block.refusal_eq_none_iff.mp hrefusal
      obtain ⟨r₂, k, heval₂, hsent₂, hend₂⟩ :=
        ih hw₁ (((List.drop_sublist _ _).map _).nodup hn) (Or.inr hab)
      refine ⟨r₂, k + 1, heval₂, ?_, ?_⟩
      · rw [hsent₂, hsent₁, Nat.add_right_comm, Nat.add_assoc]
      · rw [firstRefusal, hf, Option.none_or, ← hsent₁]
        rw [← Database.writeAll_append, List.take_append_drop] at hend₂
        exact hend₂

variable (faults) in
theorem setm_endsWith {w : Wire} (hconn : tx.conn = some conn) (hw : w.session = .inBlock b)
    (hwr : tx.writeable = true) (o : HashOrder) {pairs : List (Key × Val)} (hne : pairs ≠ []) :
    ∃ r k, (tx.setm o pairs).eval (Wire.answer faults) w = r ∧ r.2.sent = w.sent + k ∧
      EndsWith b (b.cur.writeAll pairs) r (Block.refusal b (firstRefusal faults w.sent k)) := by
  have hempty : ¬pairs.isEmpty = true := by rwa [List.isEmpty_iff]
  have hsetm : tx.setm o pairs = if (PgTransaction.dedupPairs o pairs).length ≤ SETM_MAX_PAIRS then
      tx.setmBatch (PgTransaction.dedupPairs o pairs)
      else tx.setmChunks (PgTransaction.dedupPairs o pairs) := by
    rw [PgTransaction.setm, hconn, Option.isNone_some, if_neg Bool.false_ne_true,
      PgTransaction.checkWriteable, hwr]
    exact if_neg hempty
  have hwritten : b.cur.writeAll (PgTransaction.dedupPairs o pairs) = b.cur.writeAll pairs := by
    rw [Database.writeAll, PgTransaction.upsertAll_dedupPairs, Database.writeAll]
  have hn := nodup_dedupPairs o pairs
  rw [hsetm, ← hwritten]
  split_ifs
  · obtain ⟨r, heval, hsent, hend⟩ := setmBatch_endsWith faults hconn hw hn
    exact ⟨r, 1, heval, hsent, by rwa [firstRefusal_one]⟩
  · exact setmChunks_endsWith hconn _ hw hn (Or.inl (dedupPairs_ne_nil o hne))

/-- **A batch write** agrees with the draft. -/
theorem Client.Shows.agrees_setm (h : c.Shows conn base s b) (o : HashOrder)
    (pairs : List (Key × Val))
    (hask : (Op.setm o pairs).unasked c.tx.writeable s.saved.isEmpty = none) :
    c.Agrees faults conn base s (.setm o pairs) := by
  obtain ⟨hwr, hne⟩ : c.tx.writeable = true ∧ pairs ≠ [] := by
    rw [Op.unasked] at hask
    split_ifs at hask with hw hpairs
    exact ⟨by simpa using hw, hpairs⟩
  obtain ⟨⟨r, w⟩, k, heval, hsent, hend⟩ :=
    setm_endsWith faults h.conn h.session hwr o hne
  have hperform : c.perform faults (.setm o pairs) = (r.map fun _ ↦ .unit, ⟨c.tx, w⟩) := by
    rw [perform, Op.run, keeping, Dialogue.eval_map, heval]
  obtain ⟨session, sent⟩ := w
  have hdraft := h.perform_eq rfl hask (firstRefusal faults c.wire.sent k)
  cases hrefusal : Block.refusal b (firstRefusal faults c.wire.sent k) with
  | some e =>
    rw [hrefusal] at hend hdraft
    obtain ⟨hr, cur, hcur, hs⟩ := hend
    obtain rfl : r = _ := hr
    obtain rfl : session = _ := hs
    exact agrees_of hperform hsent hdraft rfl
      (h.lost cur (hcur.trans h.catalog.1) h.conn rfl _)
  | none =>
    rw [hrefusal] at hend hdraft
    obtain ⟨hr, hs⟩ := hend
    obtain rfl : r = _ := hr
    obtain rfl : session = _ := hs
    have hedited := h.edited (b.cur.writeAll pairs) h.catalog.1
      (Block.refusal_eq_none_iff.mp hrefusal).2 sent
    rw [Database.writeAll, foldl_insert_toMap] at hedited
    exact agrees_of hperform hsent hdraft rfl hedited

/-! ## Savepoints -/

section Simple

variable {w : Wire} {x : Statement Stmt} {key : Option Key} {b' : Block Database}

theorem PgTransaction.executeSimple_refused (hconn : tx.conn = some conn)
    (hw : w.session = .inBlock b) {e : SqlxError}
    (hrun : b.run engine (faults w.sent) x = (.error e, b')) :
    (tx.executeSimple x key).eval (Wire.answer faults) w =
      (.error (.fromSqlx key e), ⟨.inBlock b', w.sent + 1⟩) := by
  rw [executeSimple, hconn]
  simp only [sendCommand, Dialogue.ask_bind, Dialogue.done_bind, Dialogue.eval_ask,
    Wire.answer_run hw, hrun]
  rfl

theorem PgTransaction.executeSimple_answered (hconn : tx.conn = some conn)
    (hw : w.session = .inBlock b) {p : Reply}
    (hrun : b.run engine (faults w.sent) x = (.ok p, b')) :
    (tx.executeSimple x key).eval (Wire.answer faults) w =
      (.ok (), ⟨.inBlock b', w.sent + 1⟩) := by
  rw [executeSimple, hconn]
  simp only [sendCommand, Dialogue.ask_bind, Dialogue.done_bind, Dialogue.eval_ask,
    Wire.answer_run hw, hrun]
  rfl

theorem Block.run_of_refused {refusal : Option SqlxError} {e : SqlxError}
    (hx : b.aborted = true → b.attempt engine x = .error engine.inFailed)
    (h : Block.refusal b refusal = some e) :
    b.run engine refusal x = (.error e, { b with aborted := true }) := by
  rw [Block.run]
  cases refusal with
  | some e' =>
    obtain rfl := Option.some.inj h
    rfl
  | none =>
    rw [Block.refusal, Option.none_or] at h
    split_ifs at h with hab
    obtain rfl := Option.some.inj h
    rw [Option.elim_none, hx hab]

end Simple

theorem Client.Shows.agrees_newSavePoint (h : c.Shows conn base s b) :
    c.Agrees faults conn base s .newSavePoint := by
  have hconn : c.tx.pushSavepointName.2.conn = some conn := h.conn
  have hask : s.perform c.tx.writeable base.pgClass
      (.newSavePoint, firstRefusal faults c.wire.sent 1) =
        match Block.refusal b (faults c.wire.sent) with
        | some e => (.error (.fromSqlx none e), { s with cur := none })
        | none => (.ok .unit, { s with saved := b.cur.kv.toMap :: s.saved }) := by
    rw [firstRefusal_one, Draft.perform, Op.unasked, Draft.answered, ← h.cur, Block.refusal]
    cases faults c.wire.sent with
    | some e => rfl
    | none => cases b.aborted <;> rfl
  cases hrefusal : Block.refusal b (faults c.wire.sent) with
  | some e =>
    have hrun := Block.run_of_refused (x := .savepoint c.tx.pushSavepointName.1)
      (fun hab ↦ by rw [Block.attempt, if_pos hab]) hrefusal
    have hperform : c.perform faults .newSavePoint = (.error (.fromSqlx none e),
        ⟨{ c.tx.pushSavepointName.2 with savepoints := c.tx.savepoints },
          ⟨.inBlock { b with aborted := true }, c.wire.sent + 1⟩⟩) := by
      rw [perform, Op.run, Dialogue.eval_map, PgTransaction.newSavePoint]
      dsimp only
      rw [Dialogue.eval_bind, PgTransaction.executeSimple_refused hconn h.session hrun]
      rfl
    rw [hrefusal] at hask
    exact agrees_of hperform rfl hask rfl (h.lost b.cur h.catalog.1 (by exact h.conn) (by rfl) _)
  | none =>
    obtain ⟨hf, hab⟩ := Block.refusal_eq_none_iff.mp hrefusal
    have hatt : b.attempt engine (.savepoint c.tx.pushSavepointName.1) =
        .ok (engine.ack, { b with marks := (c.tx.pushSavepointName.1, b.cur) :: b.marks }) := by
      rw [Block.attempt, hab]
      rfl
    have hrun := Block.run_of_answered hatt
    rw [← hf] at hrun
    have hperform : c.perform faults .newSavePoint = (.ok .unit, ⟨c.tx.pushSavepointName.2,
        ⟨.inBlock { b with marks := (c.tx.pushSavepointName.1, b.cur) :: b.marks },
          c.wire.sent + 1⟩⟩) := by
      rw [perform, Op.run, Dialogue.eval_map, PgTransaction.newSavePoint]
      dsimp only
      rw [Dialogue.eval_bind, PgTransaction.executeSimple_answered hconn h.session hrun]
      rfl
    rw [hrefusal] at hask
    refine agrees_of hperform rfl hask rfl (b := { b with
      marks := (c.tx.pushSavepointName.1, b.cur) :: b.marks }) ?_
    exact {
      conn := hconn
      session := rfl
      begun := h.begun
      names := congrArg (c.tx.pushSavepointName.1 :: ·) h.names
      saved := congrArg (b.cur.kv.toMap :: ·) h.saved
      cur := h.cur
      catalog := ⟨h.catalog.1, List.forall_mem_cons.mpr h.catalog⟩ }

theorem Client.Shows.exists_mark (h : c.Shows conn base s b)
    (hne : s.saved.isEmpty = false) : ∃ name t marks, b.marks = (name, t) :: marks ∧
      c.tx.popSavepointName =
        (some name, { c.tx with savepoints := marks.map Prod.fst }) ∧
      c.tx.savepoints = name :: marks.map Prod.fst ∧
      s.saved = t.kv.toMap :: marks.map (fun m ↦ m.2.kv.toMap) ∧
      t.pgClass = base.pgClass ∧ ∀ m ∈ marks, m.2.pgClass = base.pgClass := by
  have hnames := h.names
  have hsaved := h.saved
  have hcatalog := h.catalog.2
  cases hm : b.marks with
  | nil =>
    rw [hm] at hsaved
    rw [← hsaved] at hne
    cases hne
  | cons m marks =>
    rw [hm] at hnames hsaved hcatalog
    refine ⟨m.1, m.2, marks, rfl, ?_, hnames.symm, hsaved.symm, List.forall_mem_cons.mp hcatalog⟩
    rw [PgTransaction.popSavepointName, ← hnames]
    rfl

theorem Client.Shows.agrees_releaseLastSavePoint (h : c.Shows conn base s b)
    (hne : s.saved.isEmpty = false) : c.Agrees faults conn base s .releaseLastSavePoint := by
  obtain ⟨name, t, marks, hmarks, hpop, hnames, hsaved, -, hcatalog⟩ := h.exists_mark hne
  have hconn : PgTransaction.conn { c.tx with savepoints := marks.map Prod.fst } = some conn :=
    h.conn
  have hask : s.perform c.tx.writeable base.pgClass
      (.releaseLastSavePoint, firstRefusal faults c.wire.sent 1) =
        match Block.refusal b (faults c.wire.sent) with
        | some e => (.error (.fromSqlx none e), { s with cur := none })
        | none => (.ok .unit, { s with saved := marks.map (fun m ↦ m.2.kv.toMap) }) := by
    rw [firstRefusal_one, Draft.perform, Op.unasked, hne, Draft.answered, ← h.cur, Block.refusal,
      hsaved]
    cases faults c.wire.sent with
    | some e => rfl
    | none => cases b.aborted <;> rfl
  cases hrefusal : Block.refusal b (faults c.wire.sent) with
  | some e =>
    have hrun := Block.run_of_refused (x := .release name)
      (fun hab ↦ by rw [Block.attempt, if_pos hab]) hrefusal
    have hperform : c.perform faults .releaseLastSavePoint = (.error (.fromSqlx none e),
        ⟨{ c.tx with savepoints := name :: marks.map Prod.fst },
          ⟨.inBlock { b with aborted := true }, c.wire.sent + 1⟩⟩) := by
      rw [perform, Op.run, Dialogue.eval_map, PgTransaction.releaseLastSavePoint, hpop]
      dsimp only
      rw [Dialogue.eval_bind, PgTransaction.executeSimple_refused hconn h.session hrun]
      rfl
    rw [hrefusal] at hask
    exact agrees_of hperform rfl hask rfl
      (h.lost b.cur h.catalog.1 (by exact h.conn) (by exact hnames.symm) _)
  | none =>
    obtain ⟨hf, hab⟩ := Block.refusal_eq_none_iff.mp hrefusal
    have hatt : b.attempt engine (.release name) =
        .ok (engine.ack, { b with marks := marks }) := by
      rw [Block.attempt, hab, hmarks, resolve_cons_self]
      rfl
    have hrun := Block.run_of_answered hatt
    rw [← hf] at hrun
    have hperform : c.perform faults .releaseLastSavePoint = (.ok .unit,
        ⟨{ c.tx with savepoints := marks.map Prod.fst },
          ⟨.inBlock { b with marks := marks }, c.wire.sent + 1⟩⟩) := by
      rw [perform, Op.run, Dialogue.eval_map, PgTransaction.releaseLastSavePoint, hpop]
      dsimp only
      rw [Dialogue.eval_bind, PgTransaction.executeSimple_answered hconn h.session hrun]
      rfl
    rw [hrefusal] at hask
    refine agrees_of hperform rfl hask rfl (b := { b with marks := marks }) ?_
    exact {
      conn := hconn
      session := rfl
      begun := h.begun
      names := rfl
      saved := rfl
      cur := h.cur
      catalog := ⟨h.catalog.1, hcatalog⟩ }

theorem Client.Shows.agrees_rollbackToSavePoint (h : c.Shows conn base s b)
    (hne : s.saved.isEmpty = false) : c.Agrees faults conn base s .rollbackToSavePoint := by
  obtain ⟨name, t, marks, hmarks, hpop, hnames, hsaved, ht, hcatalog⟩ := h.exists_mark hne
  have hconn : PgTransaction.conn { c.tx with savepoints := marks.map Prod.fst } = some conn :=
    h.conn
  have hlost : ∀ k e, firstRefusal faults c.wire.sent k = some e →
      s.perform c.tx.writeable base.pgClass
        (.rollbackToSavePoint, firstRefusal faults c.wire.sent k) =
          (.error (.fromSqlx none e), { s with cur := none }) := by
    intro k e hk
    rw [hk, Draft.perform, Op.unasked, hne]
    rfl
  have hback : ∀ k, firstRefusal faults c.wire.sent k = none →
      s.perform c.tx.writeable base.pgClass
        (.rollbackToSavePoint, firstRefusal faults c.wire.sent k) =
          (.ok .unit, ⟨some t.kv.toMap, marks.map (fun m ↦ m.2.kv.toMap)⟩) := by
    intro k hk
    rw [hk, Draft.perform, Op.unasked, hne, Draft.answered, hsaved]
    rfl
  have hatt : b.attempt engine (.rollbackTo name) =
      .ok (engine.ack, { b with cur := t, aborted := false }) := by
    rw [Block.attempt, hmarks, resolve_cons_self]
  cases hf : faults c.wire.sent with
  -- `ROLLBACK TO` is refused
  | some e =>
    have hrun : b.run engine (faults c.wire.sent) (.rollbackTo name) =
        (.error e, { b with aborted := true }) := by
      rw [hf]
      rfl
    have hperform : c.perform faults .rollbackToSavePoint = (.error (.fromSqlx none e),
        ⟨{ c.tx with savepoints := name :: marks.map Prod.fst },
          ⟨.inBlock { b with aborted := true }, c.wire.sent + 1⟩⟩) := by
      rw [perform, Op.run, Dialogue.eval_map, PgTransaction.rollbackToSavePoint, hpop]
      dsimp only
      rw [Dialogue.eval_bind, PgTransaction.executeSimple_refused hconn h.session hrun]
      rfl
    exact agrees_of hperform rfl (hlost 1 e (by rw [firstRefusal_one, hf])) rfl
      (h.lost b.cur h.catalog.1 (by exact h.conn) (by exact hnames.symm) _)
  | none =>
    have hrun := Block.run_of_answered hatt
    rw [← hf] at hrun
    cases hf' : faults (c.wire.sent + 1) with
    -- it is answered, and `RELEASE` is refused
    | some e =>
      have hrun' : Block.run engine (faults (c.wire.sent + 1)) { b with cur := t, aborted := false }
          (.release name) = (.error e, { b with cur := t, aborted := true }) := by
        rw [hf']
        rfl
      have hperform : c.perform faults .rollbackToSavePoint = (.error (.fromSqlx none e),
          ⟨{ c.tx with savepoints := name :: marks.map Prod.fst },
            ⟨.inBlock { b with cur := t, aborted := true }, c.wire.sent + 2⟩⟩) := by
        rw [perform, Op.run, Dialogue.eval_map, PgTransaction.rollbackToSavePoint, hpop]
        dsimp only
        rw [Dialogue.eval_bind, PgTransaction.executeSimple_answered hconn h.session hrun]
        dsimp only
        rw [Dialogue.eval_bind, PgTransaction.executeSimple_refused hconn rfl hrun']
        rfl
      refine agrees_of (k := 2) hperform rfl (hlost 2 e ?_) rfl
        (h.lost t ht (by exact h.conn) (by exact hnames.symm) _)
      rw [firstRefusal, hf, Option.none_or, firstRefusal_one, hf']
    | none =>
      have hatt' : Block.attempt engine { b with cur := t, aborted := false } (.release name) =
          .ok (engine.ack, { b with cur := t, aborted := false, marks := marks }) := by
        rw [Block.attempt, hmarks]
        dsimp only
        rw [resolve_cons_self]
        rfl
      have hrun' := Block.run_of_answered hatt'
      rw [← hf'] at hrun'
      have hperform : c.perform faults .rollbackToSavePoint = (.ok .unit,
          ⟨{ c.tx with savepoints := marks.map Prod.fst },
            ⟨.inBlock { b with cur := t, aborted := false, marks := marks },
              c.wire.sent + 2⟩⟩) := by
        rw [perform, Op.run, Dialogue.eval_map, PgTransaction.rollbackToSavePoint, hpop]
        dsimp only
        rw [Dialogue.eval_bind, PgTransaction.executeSimple_answered hconn h.session hrun]
        dsimp only
        rw [Dialogue.eval_bind, PgTransaction.executeSimple_answered hconn rfl hrun']
        rfl
      refine agrees_of (k := 2) hperform rfl (hback 2 ?_) rfl
        (b := { b with cur := t, aborted := false, marks := marks }) ?_
      · rw [firstRefusal, hf, Option.none_or, firstRefusal_one, hf']
      · exact {
          conn := hconn
          session := rfl
          begun := h.begun
          names := rfl
          saved := rfl
          cur := rfl
          catalog := ⟨ht, hcatalog⟩ }

variable (faults) in
/-- **Every operation** agrees with the draft. -/
theorem Client.Shows.agrees (h : c.Shows conn base s b) (op : Op) :
    c.Agrees faults conn base s op := by
  cases hask : op.unasked c.tx.writeable s.saved.isEmpty with
  | some r => exact h.agrees_of_unasked hask
  | none =>
    cases op with
    | newSavePoint => exact h.agrees_newSavePoint
    | releaseLastSavePoint =>
      rw [Op.unasked] at hask
      split_ifs at hask with hne
      exact h.agrees_releaseLastSavePoint (Bool.eq_false_iff.mpr hne)
    | rollbackToSavePoint =>
      rw [Op.unasked] at hask
      split_ifs at hask with hne
      exact h.agrees_rollbackToSavePoint (Bool.eq_false_iff.mpr hne)
    | setm o pairs => exact h.agrees_setm o pairs hask
    | _ =>
      obtain ⟨stmt, decode, hq⟩ := Op.exists_isQuery h.conn rfl (by rintro o pairs ⟨⟩) hask
      exact h.agrees_of_query rfl hask hq

end

/-! ## Every run -/

/-- Cancel the transaction. -/
def Client.cancel (faults : ℕ → Option SqlxError) (c : Client) : Result Unit × Client :=
  let r := c.tx.cancel.eval (Wire.answer faults) c.wire
  (r.1.1, ⟨r.1.2, r.2⟩)

/-- What comes of a transaction begun on `base` that shows the draft `s`: nothing is permanent
before it is committed or where it is not, and committing it makes the map of the draft permanent,
if that is not lost. -/
structure Client.Closes (faults : ℕ → Option SqlxError) (base : Database) (c : Client)
    (s : Draft) : Prop where
  pending : c.wire.committed = base
  refused : ∀ e, faults c.wire.sent = some e →
    (c.commit faults).1 = .error (.fromSqlx none e) ∧
      (c.commit faults).2.wire.committed = base
  committed : faults c.wire.sent = none → (c.commit faults).1 = .ok () ∧
    (c.commit faults).2.wire.committed.kv.toMap = s.cur.getD base.kv.toMap
  cancelled : (c.cancel faults).2.wire.committed = base

section

variable {faults : ℕ → Option SqlxError} {conn : TxConn} {base : Database} {c : Client}
  {s : Draft} {b : Block Database}

theorem PgTransaction.cancel_eval {tx : PgTransaction} {w : Wire} (hconn : tx.conn = some conn)
    (hw : w.session = .inBlock b) : tx.cancel.eval (Wire.answer faults) w =
      (((faults w.sent).elim (.ok ()) fun e ↦ .error (.fromSqlx none e), tx.closed),
        ⟨.idle b.base, w.sent + 1⟩) := by
  have hans : w.answer faults (.sql .rollback) =
      ((faults w.sent).elim (.ok engine.ack) .error, ⟨.idle b.base, w.sent + 1⟩) := by
    rw [Wire.answer, hw]
    rfl
  rw [cancel, endsBy_cancelInner.close_eq hconn]
  simp only [sendCommand, Dialogue.ask_bind, Dialogue.done_bind, Dialogue.eval_ask, hans]
  cases faults w.sent <;> rfl

theorem Client.Shows.closes (h : c.Shows conn base s b) : c.Closes faults base s where
  pending := by rw [Wire.committed, h.session]; exact h.begun
  refused e he := by
    rw [commit, PgTransaction.commit_eval h.conn h.session, he]
    exact ⟨rfl, h.begun⟩
  committed hf := by
    rw [commit, PgTransaction.commit_eval h.conn h.session, hf, ← h.cur, ← h.begun]
    refine ⟨rfl, ?_⟩
    dsimp only [Wire.committed, Block.outcome]
    split_ifs <;> rfl
  cancelled := by
    rw [cancel, PgTransaction.cancel_eval h.conn h.session]
    exact h.begun

variable (faults) in
/-- **A run of operations** answers as that of the draft. -/
theorem Client.Shows.serve (h : c.Shows conn base s b) (ops : List Op) :
    (Semantics.serve (Client.perform faults) c ops).1 =
      (Semantics.serve (Draft.perform c.tx.writeable base.pgClass) s (c.refusals faults ops)).1 ∧
    ∃ b, (Semantics.serve (Client.perform faults) c ops).2.Shows conn base
      (Semantics.serve (Draft.perform c.tx.writeable base.pgClass) s (c.refusals faults ops)).2
      b := by
  induction ops generalizing c s b with
  | nil => exact ⟨rfl, b, h⟩
  | cons op ops ih =>
    obtain ⟨hans, hwrite, b', h'⟩ := h.agrees faults op
    obtain ⟨hrest, hshows⟩ := ih h'
    rw [hwrite] at hrest hshows
    rw [refusals, Semantics.serve, Semantics.serve, hans, hrest]
    exact ⟨rfl, hshows⟩

theorem Client.shows_begun (conn : TxConn) (write : Bool) (d : Database) :
    (Client.begun conn write d).Shows conn d (.begun d.kv.toMap) (Block.begin d) :=
  ⟨rfl, rfl, rfl, rfl, rfl, rfl, rfl, fun _ hm ↦ absurd hm List.not_mem_nil⟩

/-- **A transaction is a stack of maps.** Whatever the server refuses, the operations of a
transaction just begun answer as those of the draft, and what is made permanent is what the draft
says. -/
theorem transaction_refines_draft (faults : ℕ → Option SqlxError) (conn : TxConn) (write : Bool)
    (d : Database) (ops : List Op) :
    (serve (Client.perform faults) (.begun conn write d) ops).1 =
      (serve (Draft.perform write d.pgClass) (.begun d.kv.toMap)
        ((Client.begun conn write d).refusals faults ops)).1 ∧
    (serve (Client.perform faults) (.begun conn write d) ops).2.Closes faults d
      (serve (Draft.perform write d.pgClass) (.begun d.kv.toMap)
        ((Client.begun conn write d).refusals faults ops)).2 := by
  obtain ⟨hans, b, h⟩ := (Client.shows_begun conn write d).serve faults ops
  exact ⟨hans, h.closes⟩

end

end SurrealPg
