import SurrealPg.PgTx.Basic
import SurrealPg.Transaction.Outcome

/-!
# Conditional writes

`putc` and `delc` compare the value of one key with a condition and write that key if it agrees.
With `Some` condition both follow one law. Without a condition they part: `putc` asks for the key
to be absent and, being `put`, names another error, while `delc` asks for nothing and deletes.

Each of them sends one statement, so on an open block with nothing refused an operation is
determined by what that statement does and by what the operation reads off the reply.
-/

namespace SurrealPg

open Postgres Semantics

/-- A write transaction that can be used: open, inside the block `b`, which is not aborted. -/
structure Client.Usable (c : Client) (conn : TxConn) (b : Block Database) : Prop where
  conn : c.tx.conn = some conn
  writeable : c.tx.writeable = true
  session : c.wire.session = .inBlock b
  running : b.aborted = false

/-- The same transaction behind a `PgTx` that nobody else is using. -/
def Client.solo (c : Client) : Solo := ⟨some c.tx, false, c.wire⟩

/-- The transaction after a statement that left the contents `d`. -/
def Client.after (c : Client) (b : Block Database) (d : Database) : Client :=
  ⟨c.tx, ⟨.inBlock { b with cur := d }, c.wire.sent + 1⟩⟩

section

variable {faults : ℕ → Option SqlxError} {c : Client} {conn : TxConn} {b : Block Database}

theorem Client.Usable.after (h : c.Usable conn b) (d : Database) :
    (c.after b d).Usable conn { b with cur := d } :=
  ⟨h.conn, h.writeable, rfl, h.running⟩

theorem PgTransaction.query_eval {α : Type} {stmt : Stmt} {key : Option Key}
    {decode : Reply → Result α} (h : c.Usable conn b) (hf : faults c.wire.sent = none)
    {p : Reply} {d : Database} (hexec : stmt.exec b.cur = .ok (p, d)) :
    (c.tx.query stmt key decode).eval (Wire.answer faults) c.wire =
      (decode p, (c.after b d).wire) := by
  have hrun : b.run engine (faults c.wire.sent) (.data stmt) = (.ok p, { b with cur := d }) := by
    rw [Block.run, hf, Option.elim_none, Block.attempt, h.running, engine_exec, hexec]
    rfl
  rw [query, h.conn]
  simp only [sendCommand, Dialogue.ask_bind, Dialogue.done_bind, Dialogue.eval_ask,
    Wire.answer_run h.session, hrun]
  rfl

end

/-! ## The law -/

/-- `op` writes `k` under a condition on its current value: where the condition holds it returns
`Ok` and leaves `v` under `k`, elsewhere it reports `err` and leaves `k` alone; no other key
changes, and the transaction can be used further. `call` is the operation on a `PgTx`. -/
def WritesIf (op : Op) (call : TxAsync (KvsResult Unit)) (k : Key) (v : Option Val)
    (cond : Option Val → Prop) (err : PgStoreError) : Prop :=
  ∀ (faults : ℕ → Option SqlxError) (c : Client) (conn : TxConn) (b : Block Database),
    c.Usable conn b → faults c.wire.sent = none →
    ∃ (c' : Client) (d : Database), c'.tx = c.tx ∧ c'.Usable conn { b with cur := d } ∧
      ((cond (b.cur.kv.get? k) ∧ c.perform faults op = (.ok .unit, c') ∧
          call.eval (Solo.answer faults) c.solo = (.ok (), c'.solo) ∧
          d.kv.get? k = v ∧ ∀ k' ≠ k, d.kv.get? k' = b.cur.kv.get? k') ∨
        (¬cond (b.cur.kv.get? k) ∧ c.perform faults op = (.error err, c') ∧
          call.eval (Solo.answer faults) c.solo = (.error (.ofPgStoreError err), c'.solo) ∧
          d.kv = b.cur.kv))

/-- The error of a `putc` whose condition fails. -/
def putcError (k : Key) : Option Val → PgStoreError
  | none => .keyAlreadyExists k
  | some _ => .conditionNotMet k

/-- A write that is one statement: it follows the law as soon as the statement changes `k` and
counts a row where the condition holds, and changes and counts nothing elsewhere. -/
private theorem writesIf_of_query {op : Op} {call : TxAsync (KvsResult Unit)} {k : Key}
    {v : Option Val} {cond : Option Val → Prop} {err : PgStoreError} {stmt : Stmt}
    {key : Option Key} {decode : Reply → Result Unit} {f : PgTransaction → Async (Result Unit)}
    (hop : ∀ tx, op.run tx = keeping tx (fun _ ↦ .unit) (f tx))
    (hcall : call = PgTx.withTx (PgTx.lockWrite true) (PgTx.reading f))
    (hquery : ∀ tx : PgTransaction, tx.writeable = true → f tx = tx.query stmt key decode)
    (hexec : ∀ d₀ : Database, ∃ p d, stmt.exec d₀ = .ok (p, d) ∧
      ((cond (d₀.kv.get? k) ∧ decode p = .ok () ∧
          d.kv.get? k = v ∧ ∀ k' ≠ k, d.kv.get? k' = d₀.kv.get? k') ∨
        (¬cond (d₀.kv.get? k) ∧ decode p = .error err ∧ d.kv = d₀.kv))) :
    WritesIf op call k v cond err := by
  intro faults c conn b h hf
  obtain ⟨p, d, hd, hcases⟩ := hexec b.cur
  have heval : (f c.tx).eval (Wire.answer faults) c.wire = (decode p, (c.after b d).wire) := by
    rw [hquery _ h.writeable, PgTransaction.query_eval h hf hd]
  have hperform : c.perform faults op = ((decode p).map fun _ ↦ .unit, c.after b d) := by
    rw [Client.perform, hop, keeping, Dialogue.eval_map, heval]
    rfl
  have hsolo : call.eval (Solo.answer faults) c.solo =
      ((decode p).mapError .ofPgStoreError, (c.after b d).solo) := by
    rw [hcall, Client.solo, PgTx.withTx_eval (PgTx.lockWrite_eval _ _ _), PgTx.reading,
      Dialogue.eval_map, heval]
    rfl
  refine ⟨c.after b d, d, rfl, h.after d, hcases.imp ?_ ?_⟩
  · rintro ⟨hc, hp, hkv⟩
    rw [hperform, hsolo, hp]
    exact ⟨hc, rfl, rfl, hkv⟩
  · rintro ⟨hc, hp, hkv⟩
    rw [hperform, hsolo, hp]
    exact ⟨hc, rfl, rfl, hkv⟩

namespace PgTransaction

variable {tx : PgTransaction}

theorem putc_none_of_writeable (hwr : tx.writeable = true) (k : Key) (v : Val) :
    tx.putc k v none = tx.query (.put k v) (some k) fun r ↦
      if r.rowsAffected = 0 then .error (.keyAlreadyExists k) else .ok () := by
  rw [putc, checkWriteable, hwr]
  exact writeQuery_of_writeable hwr _ _ _

theorem putc_some_of_writeable (hwr : tx.writeable = true) (k : Key) (v expected : Val) :
    tx.putc k v (some expected) = tx.query (.putc k v expected) (some k) fun r ↦
      if r.rowsAffected = 0 then .error (.conditionNotMet k) else .ok () := by
  rw [putc, checkWriteable, hwr]
  rfl

theorem delc_none_of_writeable (hwr : tx.writeable = true) (k : Key) :
    tx.delc k none = tx.query (.del k) (some k) fun _ ↦ .ok () := by
  rw [delc, checkWriteable, hwr]
  exact writeQuery_of_writeable hwr _ _ _

theorem delc_some_of_writeable (hwr : tx.writeable = true) (k : Key) (expected : Val) :
    tx.delc k (some expected) = tx.query (.delc k expected) (some k) fun r ↦
      if r.rowsAffected = 0 then .error (.conditionNotMet k) else .ok () := by
  rw [delc, checkWriteable, hwr]
  rfl

end PgTransaction

theorem putc_writesIf (k : Key) (v : Val) (chk : Option Val) :
    WritesIf (.putc k v chk) (PgTx.putc true k v chk) k (some v) (· = chk) (putcError k chk) := by
  cases chk with
  | none =>
    refine writesIf_of_query (fun _ ↦ rfl) rfl
      (fun _ hwr ↦ PgTransaction.putc_none_of_writeable hwr k v) fun d ↦ ?_
    by_cases hk : d.kv.get? k = none
    · exact ⟨_, _, if_neg (by rw [hk]; exact Bool.false_ne_true),
        Or.inl ⟨hk, rfl, Table.get?_upsert_self .., fun _ ↦ Table.get?_upsert_of_ne _ _⟩⟩
    · exact ⟨_, _, if_pos (Option.isSome_iff_ne_none.mpr hk), Or.inr ⟨hk, rfl, rfl⟩⟩
  | some expected =>
    refine writesIf_of_query (fun _ ↦ rfl) rfl
      (fun _ hwr ↦ PgTransaction.putc_some_of_writeable hwr k v expected) fun d ↦ ?_
    by_cases hk : d.kv.get? k = some expected
    · exact ⟨_, _, if_pos hk,
        Or.inl ⟨hk, rfl, Table.get?_upsert_self .., fun _ ↦ Table.get?_upsert_of_ne _ _⟩⟩
    · exact ⟨_, _, if_neg hk, Or.inr ⟨hk, rfl, rfl⟩⟩

theorem delc_some_writesIf (k : Key) (expected : Val) :
    WritesIf (.delc k (some expected)) (PgTx.delc true k (some expected)) k none
      (· = some expected) (.conditionNotMet k) := by
  refine writesIf_of_query (fun _ ↦ rfl) rfl
    (fun _ hwr ↦ PgTransaction.delc_some_of_writeable hwr k expected) fun d ↦ ?_
  by_cases hk : d.kv.get? k = some expected
  · exact ⟨_, _, if_pos hk,
      Or.inl ⟨hk, rfl, Table.get?_erase_self .., fun _ ↦ Table.get?_erase_of_ne _⟩⟩
  · exact ⟨_, _, if_neg hk, Or.inr ⟨hk, rfl, rfl⟩⟩

theorem delc_none_writesIf (k : Key) (err : PgStoreError) :
    WritesIf (.delc k none) (PgTx.delc true k none) k none (fun _ ↦ True) err :=
  writesIf_of_query (fun _ ↦ rfl) rfl
    (fun _ hwr ↦ PgTransaction.delc_none_of_writeable hwr k) fun _ ↦
      ⟨_, _, rfl, Or.inl ⟨trivial, rfl, Table.get?_erase_self .., fun _ ↦ Table.get?_erase_of_ne _⟩⟩

/-- **Compare and swap.** `putc` writes exactly when the current value is the expected one, where
`None` expects the key to be absent and its failure is `KeyAlreadyExists`; `delc` with an expected
value deletes exactly when the current value is that one; `delc` without one always deletes. -/
theorem putc_delc_law (k : Key) (v : Val) (chk : Option Val) :
    WritesIf (.putc k v chk) (PgTx.putc true k v chk) k (some v) (· = chk) (putcError k chk) ∧
      WritesIf (.delc k chk) (PgTx.delc true k chk) k none (fun cur ↦ chk = none ∨ cur = chk)
        (.conditionNotMet k) := by
  refine ⟨putc_writesIf k v chk, ?_⟩
  cases chk with
  | none => simpa using delc_none_writesIf k (.conditionNotMet k)
  | some expected => simpa using delc_some_writesIf k expected

/-- On a transaction just begun on an empty table, with nothing refused: the key is absent, so
`putc` without an expected value stores and `delc` with one deletes nothing. -/
theorem putc_delc_law_opened :
    ((Client.opened .pooled ⟨∅, []⟩).perform (fun _ ↦ none) (.putc [1] [10] none)).1 =
        .ok .unit ∧
      ((Client.opened .pooled ⟨∅, []⟩).perform (fun _ ↦ none) (.delc [1] (some [10]))).1 =
        .error (.conditionNotMet [1]) := by
  have hopen : (Client.opened .pooled ⟨∅, []⟩).Usable .pooled (Block.begin ⟨∅, []⟩) :=
    ⟨rfl, rfl, rfl, rfl⟩
  constructor
  · obtain ⟨c', d, -, -, ⟨-, hp, -⟩ | ⟨habs, -⟩⟩ :=
      (putc_delc_law [1] [10] none).1 (fun _ ↦ none) _ _ _ hopen rfl
    · rw [hp]
    · exact absurd rfl habs
  · obtain ⟨c', d, -, -, ⟨hcond, -⟩ | ⟨-, hp, -⟩⟩ :=
      (putc_delc_law [1] [10] (some [10])).2 (fun _ ↦ none) _ _ _ hopen rfl
    · exact absurd hcond (by decide)
    · rw [hp]

/-- A block that sees one row. -/
private def oneRow : Database := ⟨(∅ : Table Key Val).upsert [1] [10], []⟩

/-- The key is present, no value is expected, and yet `delc` deletes it; and `putc` names another
error than `ConditionNotMet`. -/
theorem not_delc_none_writesIf_absent :
    ¬WritesIf (.delc [1] none) (PgTx.delc true [1] none) [1] none (· = none)
        (.conditionNotMet [1]) ∧
      ¬WritesIf (.putc [1] [20] none) (PgTx.putc true [1] [20] none) [1] (some [20]) (· = none)
        (.conditionNotMet [1]) := by
  have hopen : (Client.opened .pooled oneRow).Usable .pooled (Block.begin oneRow) :=
    ⟨rfl, rfl, rfl, rfl⟩
  constructor
  · intro h
    obtain ⟨c', d, -, -, ⟨habs, -⟩ | ⟨-, hp, -⟩⟩ := h (fun _ ↦ none) _ _ _ hopen rfl
    · exact absurd habs (by decide)
    · exact nomatch congrArg Prod.fst hp
  · intro h
    obtain ⟨c', d, -, -, ⟨habs, -⟩ | ⟨-, hp, -⟩⟩ := h (fun _ ↦ none) _ _ _ hopen rfl
    · exact absurd habs (by decide)
    · exact nomatch congrArg Prod.fst hp

end SurrealPg
