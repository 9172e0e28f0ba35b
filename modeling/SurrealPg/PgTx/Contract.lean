import SurrealPg.PgTx.Draft

/-!
# What the engine may think of a `PgTx`

A `PgTx` that the engine uses with one call after another is an account of what is permanent and a
draft of what is not, until it is committed or cancelled. Its calls answer as those of the account,
in the engine's errors and with the bytes counted, for every pattern of refusals by the server; a
`PgTx` that is finished stays so and says so.
-/

namespace SurrealPg

open Postgres Semantics

/-! ## The account -/

/-- A `PgTx` as the engine may think of it: the draft, `none` once it is finished, and what is
permanent. -/
structure Account where
  draft : Option Draft
  permanent : Contents

/-- The answer of an operation as a `PgTx` reports it: with the bytes of keys and values, and with
the number of values found. -/
def Answer.reported : Answer → CallAnswer
  | .unit | .countApprox _ => .unit ()
  | .bool b => .bool b
  | .val v => .val v
  | .vals vs =>
    .multi ⟨vs, vs.reduceOption.length, (vs.reduceOption.map List.length).sum⟩
  | .keys ks => .keys ⟨ks, (ks.map List.length).sum⟩
  | .pairs ps =>
    .scan ⟨ps, (ps.map fun p ↦ p.1.length).sum, (ps.map fun p ↦ p.2.length).sum⟩
  | .count n => .count n

/-- The operation a call is about, with the version it asks for; closing calls are about none. -/
def Call.inner : Call → Option (Op × Option UInt64)
  | .exists key version => some (.exists key, version)
  | .get key version => some (.get key, version)
  | .getm ks version => some (.getm ks, version)
  | .getr start stop version => some (.getr start stop, version)
  | .set key val => some (.set key val, none)
  | .put key val => some (.put key val, none)
  | .putc key val chk => some (.putc key val chk, none)
  | .del key => some (.del key, none)
  | .delc key chk => some (.delc key chk, none)
  | .delr start stop | .clrr start stop => some (.delr start stop, none)
  | .keys start stop limit skip version => some (.keys start stop limit skip, version)
  | .keysr start stop limit skip version => some (.keysr start stop limit skip, version)
  | .scan start stop limit skip version => some (.scan start stop limit skip, version)
  | .scanr start stop limit skip version => some (.scanr start stop limit skip, version)
  | .count start stop version => some (.count start stop, version)
  | .newSavePoint => some (.newSavePoint, none)
  | .releaseLastSavePoint => some (.releaseLastSavePoint, none)
  | .rollbackToSavePoint => some (.rollbackToSavePoint, none)
  | .commit | .cancel => none

namespace Account

/-- The account of a transaction just begun. -/
def begun (m : Contents) : Account := ⟨some (.begun m), m⟩

/-- What a closing call that is not refused makes permanent. -/
def settled (permanent : Contents) (s : Draft) : Call → Contents
  | .commit => s.cur.getD permanent
  | _ => permanent

/-- One call, in which the server refused a statement or did not. -/
noncomputable def perform (write : Bool) (catalog : List (String × ℤ)) (a : Account)
    (call : Call × Option SqlxError) : KvsResult CallAnswer × Account :=
  match call.1.inner, a.draft with
  | some (_, some _), _ => (.error .unsupportedVersionedQueries, a)
  | _, none => (.error .transactionFinished, a)
  | some (op, none), some s =>
    (((s.perform write catalog (op, call.2)).1.mapError .ofPgStoreError).map Answer.reported,
      { a with draft := some (s.perform write catalog (op, call.2)).2 })
  | none, some s =>
    match call.2 with
    | some e => (.error (.ofPgStoreError (.fromSqlx none e)), ⟨none, a.permanent⟩)
    | none => (.ok (.unit ()), ⟨none, settled a.permanent s call.1⟩)

end Account

/-! ## The calls of one caller -/

namespace Solo

variable (faults : ℕ → Option SqlxError) (write : Bool)

/-- A call on a `PgTx` that nobody else is using. -/
def perform (s : Solo) (call : Call) : KvsResult CallAnswer × Solo :=
  (call.code write).eval (Solo.answer faults) s

/-- The first refusal that a call meets. -/
def refusal (s : Solo) (call : Call) : Option SqlxError :=
  firstRefusal faults s.wire.sent ((s.perform faults write call).2.wire.sent - s.wire.sent)

/-- Calls made one after another, each with the refusal it meets. -/
def refusals : Solo → List Call → List (Call × Option SqlxError)
  | _, [] => []
  | s, call :: calls =>
    (call, s.refusal faults write call) :: refusals (s.perform faults write call).2 calls

/-- A `PgTx` just made for a transaction begun on `d`. -/
def begun (conn : TxConn) (d : Database) : Solo := (Client.begun conn write d).solo

end Solo

/-! ## A call is its operation -/

/-- On an open transaction the call runs the operation, and reports what it returns. -/
def Call.Runs (write : Bool) (call : Call) (op : Op) : Prop :=
  ∀ (faults : ℕ → Option SqlxError) (conn : TxConn) (c : Client), c.tx.conn = some conn →
    c.tx.writeable = write → c.solo.perform faults write call =
      (((c.perform faults op).1.mapError .ofPgStoreError).map Answer.reported,
        (c.perform faults op).2.solo)

section

variable {α : Type} {write : Bool} {call : Call} {op : Op} {g : α → Answer} {h : α → CallAnswer}

theorem runs_of_withTx {guard : TxAsync (KvsResult PgTransaction)}
    {body : PgTransaction → Async (Result α × PgTransaction)}
    (hguard : ∀ faults tx w, guard.eval (Solo.answer faults) ⟨some tx, false, w⟩ =
      (.ok tx, ⟨some tx, false, w⟩))
    (hop : ∀ tx, op.run tx = (fun r ↦ (r.1.map g, r.2)) <$> body tx)
    (hcode : call.code write = Call.wrap h (PgTx.withTx guard body))
    (hgh : ∀ a, (g a).reported = h a) : call.Runs write op := by
  intro faults conn c _ _
  rw [Solo.perform, hcode, Call.wrap, Dialogue.eval_map, Client.solo,
    PgTx.withTx_eval (hguard _ _ _), Client.perform, hop, Dialogue.eval_map]
  obtain rfl : (fun a ↦ (g a).reported) = h := funext hgh
  cases ((body c.tx).eval (Wire.answer faults) c.wire).1.1 <;> rfl

theorem runs_of_read {f : PgTransaction → Async (Result α)}
    (hop : ∀ tx, op.run tx = keeping tx g (f tx))
    (hcode : call.code write = Call.wrap h (PgTx.read none f))
    (hgh : ∀ a, (g a).reported = h a) : call.Runs write op := by
  refine runs_of_withTx (fun _ _ _ ↦ rfl) (fun tx ↦ ?_) hcode hgh
  rw [hop, keeping, PgTx.reading, ← comp_map]
  rfl

/-- A write takes the lock in its own way, and is refused there on a read-only `PgTx`. -/
theorem runs_of_write {f : PgTransaction → Async (Result α)}
    (hop : ∀ tx, op.run tx = keeping tx g (f tx))
    (hcode : call.code write = Call.wrap h (PgTx.withTx (PgTx.lockWrite write) (PgTx.reading f)))
    (hgh : ∀ a, (g a).reported = h a)
    (hreadOnly : ∀ noSavepoint, op.unasked false noSavepoint = some (.error .txReadOnly)) :
    call.Runs write op := by
  cases write with
  | true =>
    refine runs_of_withTx (fun _ _ _ ↦ rfl) (fun tx ↦ ?_) hcode hgh
    rw [hop, keeping, PgTx.reading, ← comp_map]
    rfl
  | false =>
    intro faults conn c hconn hwrite
    have hrun : op.run c.tx = pure (.error .txReadOnly, c.tx) :=
      Op.run_of_unasked hconn (by rw [hwrite, hreadOnly])
    rw [Solo.perform, hcode, Client.perform, hrun]
    rfl

end

open PgTx in
theorem Call.runs (write : Bool) {call : Call} {op : Op} (h : call.inner = some (op, none)) :
    call.Runs write op := by
  have hkeys : ∀ ks, (Answer.keys ks).reported = .keys (keysResult ks) := fun _ ↦ rfl
  have hscan : ∀ ps, (Answer.pairs ps).reported = .scan (scanResult ps) :=
    fun ps ↦ (KvCall.scanResult_eq ps).symm
  cases call with
  | «exists» | get | count =>
    obtain ⟨rfl, rfl⟩ := Prod.mk.inj (Option.some.inj h)
    exact runs_of_read (fun _ ↦ rfl) rfl fun _ ↦ rfl
  | getm ks =>
    obtain ⟨rfl, rfl⟩ := Prod.mk.inj (Option.some.inj h)
    refine runs_of_read (fun _ ↦ rfl) (wrap_map _ _ _) fun vs ↦ ?_
    exact congrArg CallAnswer.multi (getMultiResult_eq vs).symm
  | keys | keysr =>
    obtain ⟨rfl, rfl⟩ := Prod.mk.inj (Option.some.inj h)
    exact runs_of_read (fun _ ↦ rfl) (wrap_map _ _ _) hkeys
  | scan | scanr | getr =>
    obtain ⟨rfl, rfl⟩ := Prod.mk.inj (Option.some.inj h)
    exact runs_of_read (fun _ ↦ rfl) (wrap_map _ _ _) hscan
  | set | put | putc | del | delc | delr | clrr =>
    obtain ⟨rfl, -⟩ := Prod.mk.inj (Option.some.inj h)
    exact runs_of_write (fun _ ↦ rfl) rfl (fun _ ↦ rfl) fun _ ↦ rfl
  | newSavePoint | releaseLastSavePoint | rollbackToSavePoint =>
    obtain ⟨rfl, -⟩ := Prod.mk.inj (Option.some.inj h)
    exact runs_of_withTx (g := fun _ ↦ .unit) (fun _ _ _ ↦ rfl) (fun _ ↦ rfl) rfl fun _ ↦ rfl
  | commit | cancel => cases h

/-! ## A call and its account -/

/-- A `PgTx` shows an account: it is open, and its transaction shows the draft, or it is finished,
and the connection is out of its block. -/
inductive Solo.Shows (write : Bool) (conn : TxConn) (base : Database) : Solo → Account → Prop
  | «open» {c : Client} {s : Draft} {b : Block Database} : c.Shows conn base s b →
    c.tx.writeable = write → Solo.Shows write conn base c.solo ⟨some s, base.kv.toMap⟩
  | finished {d : Database} {n : ℕ} :
    Solo.Shows write conn base ⟨none, true, ⟨.idle d, n⟩⟩ ⟨none, d.kv.toMap⟩

section

variable {write : Bool} {conn : TxConn} {base : Database} {s : Solo} {a : Account}
  {faults : ℕ → Option SqlxError}

theorem perform_versioned {call : Call} {op : Op} {version : UInt64}
    (h : call.inner = some (op, some version)) (s : Solo) :
    s.perform faults write call = (.error .unsupportedVersionedQueries, s) := by
  cases call with
  | «exists» | get | count | getm | keys | keysr | scan | scanr | getr =>
    obtain ⟨-, rfl⟩ := Prod.mk.inj (Option.some.inj h)
    rfl
  | _ => cases h

theorem perform_finished {call : Call} (h : ∀ op version, call.inner ≠ some (op, some version))
    (w : Wire) : (Solo.mk none true w).perform faults write call =
      (.error .transactionFinished, ⟨none, true, w⟩) := by
  cases call with
  | «exists» _ version | get _ version | count _ _ version | getm _ version
  | keys _ _ _ _ version | keysr _ _ _ _ version | scan _ _ _ _ version
  | scanr _ _ _ _ version | getr _ _ version =>
    cases version with
    | none => rfl
    | some version => exact absurd rfl (h _ version)
  | _ => rfl

theorem Solo.Shows.close {c : Client} {d : Draft} {b : Block Database}
    (h : c.Shows conn base d b) {call : Call} (hcall : call.inner = none) :
    (c.solo.perform faults write call).1 =
        ((Account.mk (some d) base.kv.toMap).perform write base.pgClass
          (call, c.solo.refusal faults write call)).1 ∧
      (c.solo.perform faults write call).2.Shows write conn base
        ((Account.mk (some d) base.kv.toMap).perform write base.pgClass
          (call, c.solo.refusal faults write call)).2 := by
  have hone : ∀ {r : KvsResult CallAnswer} {d' : Database},
      c.solo.perform faults write call = (r, ⟨none, true, ⟨.idle d', c.wire.sent + 1⟩⟩) →
      (Account.mk (some d) base.kv.toMap).perform write base.pgClass
        (call, faults c.wire.sent) = (r, ⟨none, d'.kv.toMap⟩) →
      (c.solo.perform faults write call).1 =
          ((Account.mk (some d) base.kv.toMap).perform write base.pgClass
            (call, c.solo.refusal faults write call)).1 ∧
        (c.solo.perform faults write call).2.Shows write conn base
          ((Account.mk (some d) base.kv.toMap).perform write base.pgClass
            (call, c.solo.refusal faults write call)).2 := by
    intro r d' hperform haccount
    have hrefusal : c.solo.refusal faults write call = faults c.wire.sent := by
      rw [refusal, hperform]
      dsimp only [Client.solo]
      rw [Nat.add_sub_cancel_left, firstRefusal_one]
    rw [hrefusal, haccount, hperform]
    exact ⟨rfl, .finished⟩
  have hcur : (Block.outcome b).kv.toMap = d.cur.getD base.kv.toMap := by
    rw [Block.outcome, ← h.cur, ← h.begun]
    split_ifs <;> rfl
  cases call with
  | commit =>
    have heval : c.solo.perform faults write .commit =
        (((c.tx.commit.eval (Wire.answer faults) c.wire).1.1.mapError .ofPgStoreError).map
          .unit, ⟨none, true, (c.tx.commit.eval (Wire.answer faults) c.wire).2⟩) := by
      rw [perform, Call.code, Call.wrap, Dialogue.eval_map, Client.solo, PgTx.commit,
        PgTx.close_eval _ PgTx.settleCommit_eval]
    rw [PgTransaction.commit_eval h.conn h.session, h.begun] at heval
    cases hf : faults c.wire.sent with
    | some e =>
      rw [hf] at heval
      refine hone heval ?_
      rw [hf]
      rfl
    | none =>
      rw [hf] at heval
      refine hone heval ?_
      rw [hf, hcur]
      rfl
  | cancel =>
    have heval : c.solo.perform faults write .cancel =
        (((c.tx.cancel.eval (Wire.answer faults) c.wire).1.1.mapError .ofPgStoreError).map
          .unit, ⟨none, true, (c.tx.cancel.eval (Wire.answer faults) c.wire).2⟩) := by
      rw [perform, Call.code, Call.wrap, Dialogue.eval_map, Client.solo, PgTx.cancel,
        PgTx.close_eval _ fun _ _ ↦ rfl]
    rw [PgTransaction.cancel_eval h.conn h.session, h.begun] at heval
    refine hone heval ?_
    cases faults c.wire.sent <;> rfl
  | _ => cases hcall

variable (faults) in
/-- **One call** answers as that of the account. -/
theorem Solo.Shows.perform (h : s.Shows write conn base a) (call : Call) :
    (s.perform faults write call).1 =
        (a.perform write base.pgClass (call, s.refusal faults write call)).1 ∧
      (s.perform faults write call).2.Shows write conn base
        (a.perform write base.pgClass (call, s.refusal faults write call)).2 := by
  rcases hinner : call.inner with - | ⟨op, - | version⟩
  · cases h with
    | «open» h hwrite => exact close h hinner
    | finished =>
      rw [perform_finished (fun op version ↦ by rw [hinner]; exact nofun), Account.perform, hinner]
      exact ⟨rfl, .finished⟩
  · cases h with
    | @«open» c d b h hwrite =>
      have hruns := Call.runs write hinner faults conn c h.conn hwrite
      obtain ⟨hans, hwrite', b', h'⟩ := h.agrees faults op
      have hrefusal : c.solo.refusal faults write call = c.refusal faults op := by
        rw [refusal, hruns]
        rfl
      rw [hrefusal, hruns, Account.perform, hinner, hans]
      rw [hwrite] at h' hwrite' ⊢
      exact ⟨rfl, .open h' hwrite'⟩
    | finished =>
      rw [perform_finished (fun op version ↦ by rw [hinner]; simp), Account.perform, hinner]
      exact ⟨rfl, .finished⟩
  · rw [perform_versioned hinner, Account.perform, hinner]
    exact ⟨rfl, h⟩

end

/-! ## Every run -/

theorem Solo.shows_begun (write : Bool) (conn : TxConn) (d : Database) :
    (Solo.begun write conn d).Shows write conn d (.begun d.kv.toMap) :=
  .open (Client.shows_begun conn write d) rfl

theorem Solo.Shows.serve (faults : ℕ → Option SqlxError) {write : Bool} {conn : TxConn}
    {base : Database} {s : Solo} {a : Account} (h : s.Shows write conn base a)
    (calls : List Call) :
    (Semantics.serve (Solo.perform faults write) s calls).1 =
        (Semantics.serve (Account.perform write base.pgClass) a (s.refusals faults write calls)).1 ∧
      (Semantics.serve (Solo.perform faults write) s calls).2.Shows write conn base
        (Semantics.serve (Account.perform write base.pgClass) a
          (s.refusals faults write calls)).2 := by
  induction calls generalizing s a with
  | nil => exact ⟨rfl, h⟩
  | cons call calls ih =>
    obtain ⟨hans, h'⟩ := h.perform faults call
    obtain ⟨hrest, hshows⟩ := ih h'
    rw [refusals, Semantics.serve, Semantics.serve, hans, hrest]
    exact ⟨rfl, hshows⟩

theorem Solo.Shows.committed {write : Bool} {conn : TxConn} {base : Database} {s : Solo}
    {a : Account} (h : s.Shows write conn base a) : s.wire.committed.kv.toMap = a.permanent := by
  cases h with
  | «open» h hwrite =>
    rw [Client.solo, Wire.committed, h.session]
    dsimp only
    rw [h.begun]
  | finished => rfl

/-- **What the engine sees of a `PgTx`.** Whatever the server refuses, any calls, the closing ones
and those after them included, answer as those of the account, and what is permanent at the end is
what the account says. -/
theorem pgTx_refines_account (faults : ℕ → Option SqlxError) (write : Bool) (conn : TxConn)
    (d : Database) (calls : List Call) :
    (serve (Solo.perform faults write) (.begun write conn d) calls).1 =
      (serve (Account.perform write d.pgClass) (.begun d.kv.toMap)
        ((Solo.begun write conn d).refusals faults write calls)).1 ∧
    (serve (Solo.perform faults write) (.begun write conn d) calls).2.wire.committed.kv.toMap =
      (serve (Account.perform write d.pgClass) (.begun d.kv.toMap)
        ((Solo.begun write conn d).refusals faults write calls)).2.permanent := by
  obtain ⟨hans, h⟩ := (Solo.shows_begun write conn d).serve faults calls
  exact ⟨hans, h.committed⟩

end SurrealPg
