import SurrealPg.PgTx.Basic
import SurrealPg.Semantics.Typestate
import SurrealPg.Transaction.Quiet

/-!
# The protocol of a `PgTx` call

The calls a `PgTx` accepts, and the phases each of them goes through with the mutex, the `done`
flag and the inner transaction. An operation looks at the flag, takes the lock, finds the
transaction there or not, and gives the lock back. A closing call looks, takes the lock, claims
the close with a swap, takes the transaction out, gives the lock back, talks to the server, counts
the transaction off and counts the outcome. Every call follows this protocol whatever it is
answered; what the answers can be is a matter of how calls interleave.
-/

namespace SurrealPg

open Postgres Semantics

/-- A call of one of the `Transactable` methods. -/
inductive Call
  | «exists» (key : Key) (version : Option UInt64)
  | get (key : Key) (version : Option UInt64)
  | getm (ks : List Key) (version : Option UInt64)
  | getr (start stop : Key) (version : Option UInt64)
  | set (key : Key) (val : Val)
  | put (key : Key) (val : Val)
  | putc (key : Key) (val : Val) (chk : Option Val)
  | del (key : Key)
  | delc (key : Key) (chk : Option Val)
  | delr (start stop : Key)
  | clrr (start stop : Key)
  | keys (start stop : Key) (limit skip : UInt32) (version : Option UInt64)
  | keysr (start stop : Key) (limit skip : UInt32) (version : Option UInt64)
  | scan (start stop : Key) (limit skip : UInt32) (version : Option UInt64)
  | scanr (start stop : Key) (limit skip : UInt32) (version : Option UInt64)
  | count (start stop : Key) (version : Option UInt64)
  | newSavePoint
  | releaseLastSavePoint
  | rollbackToSavePoint
  | commit
  | cancel

/-- What a call returns when it succeeds. -/
inductive CallAnswer
  | unit (u : Unit)
  | bool (b : Bool)
  | val (v : Option Val)
  | multi (r : GetMultiResult)
  | keys (r : KeysResult)
  | scan (r : ScanResult)
  | count (n : ℕ)

namespace Call

/-- Wrap the answer of a method. -/
def wrap {α : Type} (f : α → CallAnswer) (d : TxAsync (KvsResult α)) :
    TxAsync (KvsResult CallAnswer) := Except.map f <$> d

/-- The method a call runs, on a `PgTx` whose `write` field is `write`. -/
def code (write : Bool) : Call → TxAsync (KvsResult CallAnswer)
  | .exists key version => wrap .bool (PgTx.exists key version)
  | .get key version => wrap .val (PgTx.get key version)
  | .getm ks version => wrap .multi (PgTx.getm ks version)
  | .getr start stop version => wrap .scan (PgTx.getr start stop version)
  | .set key val => wrap .unit (PgTx.set write key val)
  | .put key val => wrap .unit (PgTx.put write key val)
  | .putc key val chk => wrap .unit (PgTx.putc write key val chk)
  | .del key => wrap .unit (PgTx.del write key)
  | .delc key chk => wrap .unit (PgTx.delc write key chk)
  | .delr start stop => wrap .unit (PgTx.delr write start stop)
  | .clrr start stop => wrap .unit (PgTx.clrr write start stop)
  | .keys start stop limit skip version => wrap .keys (PgTx.keys start stop limit skip version)
  | .keysr start stop limit skip version => wrap .keys (PgTx.keysr start stop limit skip version)
  | .scan start stop limit skip version => wrap .scan (PgTx.scan start stop limit skip version)
  | .scanr start stop limit skip version => wrap .scan (PgTx.scanr start stop limit skip version)
  | .count start stop version => wrap .count (PgTx.count start stop version)
  | .newSavePoint => wrap .unit PgTx.newSavePoint
  | .releaseLastSavePoint => wrap .unit PgTx.releaseLastSavePoint
  | .rollbackToSavePoint => wrap .unit PgTx.rollbackToSavePoint
  | .commit => wrap .unit PgTx.commit
  | .cancel => wrap .unit PgTx.cancel

/-- Whether the call is a commit or a cancel. -/
def isCloser : Call → Bool
  | .commit | .cancel => true
  | _ => false

/-- Whether the call is there to change the table. -/
def isWrite : Call → Bool
  | .set .. | .put .. | .putc .. | .del .. | .delc .. | .delr .. | .clrr .. => true
  | _ => false

end Call

/-! ## Phases -/

/-- Where a call is in the protocol. -/
inductive Phase
  /-- Without the lock, having learnt nothing. -/
  | idle
  /-- Holding the lock, before looking behind it. -/
  | locked
  /-- Holding the lock over an open transaction. -/
  | inside
  /-- Holding the lock, the operation being over. -/
  | written
  /-- An operation that has given the lock back. -/
  | served
  /-- Holding the lock, having learnt that the transaction is closed. -/
  | shut
  /-- Without the lock, having learnt that the transaction is closed. -/
  | refused
  /-- Holding the lock, having claimed the close. -/
  | claimed
  /-- Holding the lock and the transaction taken from behind it. -/
  | taken
  /-- Owning the transaction, which is still open. -/
  | owning
  /-- `COMMIT` or `ROLLBACK` has been answered. -/
  | closing
  /-- The transaction has been counted off. -/
  | released
  /-- The outcome has been counted. -/
  | settled
  deriving DecidableEq

namespace Phase

/-- What a call may ask for in a phase, and what it leaves behind if it is dropped there. -/
inductive May : Bool → Phase → TxReq → Option TxNote → Prop
  | look {closer : Bool} : May closer idle .loadDone none
  | wait {closer : Bool} : May closer idle .lock (some .waiting)
  | peek : May false locked .readInner none
  | statement (c : Statement Stmt) (left : Unwound) : left.self.conn.isSome = true →
    May false inside (.tx (.sql (.run c))) (some (.guarded left))
  | putBack (tx : PgTransaction) : tx.conn.isSome = true → May false inside (.writeInner tx) none
  | leave : May false written .unlock none
  | turnBack {closer : Bool} : May closer shut .unlock none
  | claim : May true locked .swapDone none
  | take : May true claimed .takeInner none
  | giveBack : May true taken .unlock none
  | commit (left : Unwound) : left.guard = true → left.self.conn = none →
    May true owning (.tx (.sql .commit)) (some (.owning left))
  | rollback (left : Unwound) : left.guard = true → left.self.conn = none →
    May true owning (.tx (.sql .rollback)) (some (.owning left))
  | release : May true closing (.tx .releaseActive) none
  | countCommitted : May true released .addCommitted none
  | countRolledBack : May true released .addRolledBack none

/-- The phase an answer leads to. A transaction found behind the lock has its connection, and a
call that has claimed the close finds one. -/
def next : Phase → (q : TxReq) → q.Answer → Option Phase
  | idle, .loadDone => fun done ↦ some (bif done then refused else idle)
  | idle, .lock => fun _ ↦ some locked
  | locked, .readInner => fun inner ↦
    inner.elim (some shut) fun tx ↦ if tx.conn.isSome then some inside else none
  | locked, .swapDone => fun done ↦ some (bif done then shut else claimed)
  | inside, .tx (.sql _) => fun _ ↦ some inside
  | inside, .writeInner _ => fun _ ↦ some written
  | written, .unlock => fun _ ↦ some served
  | shut, .unlock => fun _ ↦ some refused
  | claimed, .takeInner => fun inner ↦
    inner.elim none fun tx ↦ if tx.conn.isSome then some taken else none
  | taken, .unlock => fun _ ↦ some owning
  | owning, .tx (.sql _) => fun _ ↦ some closing
  | closing, .tx .releaseActive => fun _ ↦ some released
  | released, .addCommitted | released, .addRolledBack => fun _ ↦ some settled
  | _, _ => fun _ ↦ none

/-- What a call may return in a phase: one that was turned back says so, a closing call that was
not turned back says something else, and an operation that never took the lock says anything. -/
def Ends (closer : Bool) : Phase → KvsResult CallAnswer → Prop
  | refused, a => a = .error .transactionFinished
  | settled, a => closer = true ∧ a ≠ .error .transactionFinished
  | idle, _ | served, _ => closer = false
  | _, _ => False

end Phase

/-- The protocol as a typestate. -/
def protocol : Typestate Call TxReq TxReq.Answer TxNote (KvsResult CallAnswer) Phase where
  start _ := .idle
  may c := Phase.May c.isCloser
  next := Phase.next
  ends c := Phase.Ends c.isCloser

/-! ## Every call follows the protocol -/

namespace PgTx

open Phase

/-- What a call has after trying to take the lock: the transaction, or an error to return. -/
inductive Locked : Phase → KvsResult PgTransaction → Prop
  | refused : Locked .refused (.error .transactionFinished)
  | readonly : Locked .idle (.error .transactionReadonly)
  | inside (tx : PgTransaction) : tx.conn.isSome = true → Locked .inside (.ok tx)

theorem afterLock_follows : Dialogue.Follows (May false) next Locked .locked
    (readInner >>= fun inner ↦ match inner with
      | none => do
        unlock
        return .error .transactionFinished
      | some tx => return .ok tx) := by
  refine ⟨.peek, fun inner φ hφ ↦ ?_⟩
  cases inner with
  | none =>
    obtain rfl := Option.some.inj hφ
    refine ⟨.turnBack, fun _ φ hφ ↦ ?_⟩
    obtain rfl := Option.some.inj hφ
    exact .refused
  | some tx =>
    dsimp only [next, Option.elim_some] at hφ
    split_ifs at hφ with hconn
    obtain rfl := Option.some.inj hφ
    exact .inside tx hconn

theorem lock_follows : lock.Follows (May false) next Locked .idle := by
  refine ⟨.look, fun done φ hφ ↦ ?_⟩
  cases done with
  | true =>
    obtain rfl := Option.some.inj hφ
    exact .refused
  | false =>
    obtain rfl := Option.some.inj hφ
    refine ⟨.wait, fun _ φ hφ ↦ ?_⟩
    obtain rfl := Option.some.inj hφ
    exact afterLock_follows

theorem lockWrite_follows (write : Bool) :
    (lockWrite write).Follows (May false) next Locked .idle := by
  refine ⟨.look, fun done φ hφ ↦ ?_⟩
  cases done with
  | true =>
    obtain rfl := Option.some.inj hφ
    exact .refused
  | false =>
    obtain rfl := Option.some.inj hφ
    cases write with
    | false => exact .readonly
    | true =>
      refine ⟨.wait, fun _ φ hφ ↦ ?_⟩
      obtain rfl := Option.some.inj hφ
      exact afterLock_follows

theorem underGuard_follows {α : Type} {r : α → Prop} {conn : Option TxConn} {a : Async α}
    (h : a.All (Quiet conn) r) :
    (underGuard a).Follows (May false) next (fun φ x ↦ φ = inside ∧ r x) .inside := by
  refine Dialogue.Follows.embed h (fun q u hq ↦ ?_) fun q u x hq ↦ ?_
  · obtain ⟨c, left, hconn, hleft, -⟩ := hq
    exact .statement c left (hleft ▸ hconn)
  · obtain ⟨c, left, -, -, -⟩ := hq
    rfl

/-- **An operation follows the protocol** if what it runs on the transaction is quiet. -/
theorem withTx_follows {α : Type} {guard : TxAsync (KvsResult PgTransaction)}
    {body : PgTransaction → Async (Result α × PgTransaction)} {f : α → CallAnswer}
    (hguard : guard.Follows (May false) next Locked .idle)
    (hbody : ∀ tx, (body tx).All (Quiet tx.conn) fun r ↦ r.2.conn = tx.conn) :
    (Call.wrap f (withTx guard body)).Follows (May false) next (Ends false) .idle := by
  refine Dialogue.Follows.map (Dialogue.Follows.bind hguard ?_)
  rintro φ r (_ | _ | ⟨tx, hconn⟩)
  · exact rfl
  · exact rfl
  · refine Dialogue.Follows.bind (underGuard_follows (hbody tx)) ?_
    rintro φ ⟨r, tx'⟩ ⟨rfl, htx'⟩
    refine ⟨.putBack tx' (by rw [htx', hconn]), fun _ φ hφ ↦ ?_⟩
    obtain rfl := Option.some.inj hφ
    refine ⟨.leave, fun _ φ hφ ↦ ?_⟩
    obtain rfl := Option.some.inj hφ
    exact rfl

end PgTx

/-- **An operation**, as the code of a call: it is rejected at once, or takes the lock and runs
what it is there for on the transaction. A write takes the lock in another way. -/
inductive Serves (write : Bool) : Bool → TxAsync (KvsResult CallAnswer) → Prop
  | rejected (e : KvsError) : Serves write false (.done (.error e))
  | reads {α : Type} (f : α → CallAnswer)
      (body : PgTransaction → Async (Result α × PgTransaction)) :
      (∀ tx, (body tx).All (Sends tx false) fun r ↦ r.2.SameMode tx) →
      Serves write false (Call.wrap f (PgTx.withTx PgTx.lock body))
  | writes {α : Type} (f : α → CallAnswer)
      (body : PgTransaction → Async (Result α × PgTransaction)) :
      (∀ tx, (body tx).All (Sends tx tx.writeable) fun r ↦ r.2.SameMode tx) →
      Serves write true (Call.wrap f (PgTx.withTx (PgTx.lockWrite write) body))

namespace PgTx

theorem reading_sends {α : Type} {may : Bool} {f : PgTransaction → Async (Result α)}
    {tx : PgTransaction} (h : (f tx).All (Sends tx may) fun _ ↦ True) :
    (reading f tx).All (Sends tx may) fun r ↦ r.2.SameMode tx :=
  Dialogue.All.map (h.mono (fun _ _ hq ↦ hq) fun _ _ ↦ .refl tx)

theorem wrap_map {α β : Type} (f : β → CallAnswer) (g : α → β) (d : TxAsync (KvsResult α)) :
    Call.wrap f (Except.map g <$> d) = Call.wrap (f ∘ g) d := by
  rw [Call.wrap, Call.wrap, ← comp_map]
  refine congrArg (· <$> d) (funext fun r ↦ ?_)
  cases r <;> rfl

theorem read_serves {α : Type} {write : Bool} {f : PgTransaction → Async (Result α)}
    {g : α → CallAnswer} (version : Option UInt64)
    (h : ∀ tx, (f tx).All (Sends tx false) fun _ ↦ True) :
    Serves write false (Call.wrap g (read version f)) := by
  rw [read]
  rcases checkVersion version with e | u
  · exact .rejected e
  · exact .reads g _ fun tx ↦ reading_sends (h tx)

theorem write_serves {α : Type} {write : Bool} {f : PgTransaction → Async (Result α)}
    {g : α → CallAnswer} (h : ∀ tx, (f tx).All (Sends tx tx.writeable) fun _ ↦ True) :
    Serves write true (Call.wrap g (withTx (lockWrite write) (reading f))) :=
  .writes g _ fun tx ↦ reading_sends (h tx)

end PgTx

open PgTx PgTransaction in
theorem Call.serves (write : Bool) {c : Call} (hc : c.isCloser = false) :
    Serves write c.isWrite (c.code write) := by
  cases c with
  | «exists» key version | get key version =>
    exact read_serves version fun tx ↦ query_sends (Or.inr rfl)
  | getm ks version =>
    rw [code, PgTx.getm, wrap_map]
    exact read_serves version fun tx ↦ getm_sends ks
  | getr start stop version =>
    rw [code, PgTx.getr, wrap_map]
    exact read_serves version fun tx ↦ getr_sends start stop
  | set | put | del => exact write_serves fun tx ↦ writeQuery_sends
  | putc key val chk => exact write_serves fun tx ↦ putc_sends key val chk
  | delc key chk => exact write_serves fun tx ↦ delc_sends key chk
  | delr start stop | clrr start stop =>
    exact write_serves fun tx ↦ delr_sends start stop
  | keys start stop limit skip version =>
    rw [code, PgTx.keys, wrap_map]
    exact read_serves version fun tx ↦ rangeQueryOffset_sends rfl
  | keysr start stop limit skip version =>
    rw [code, PgTx.keysr, wrap_map]
    exact read_serves version fun tx ↦ rangeQueryOffset_sends rfl
  | scan start stop limit skip version =>
    rw [code, PgTx.scan, wrap_map]
    exact read_serves version fun tx ↦ rangeQueryOffset_sends rfl
  | scanr start stop limit skip version =>
    rw [code, PgTx.scanr, wrap_map]
    exact read_serves version fun tx ↦ rangeQueryOffset_sends rfl
  | count start stop version => exact read_serves version fun tx ↦ count_sends start stop
  | newSavePoint => exact .reads _ _ fun tx ↦ newSavePoint_sends
  | releaseLastSavePoint => exact .reads _ _ fun tx ↦ releaseLastSavePoint_sends
  | rollbackToSavePoint => exact .reads _ _ fun tx ↦ rollbackToSavePoint_sends
  | commit | cancel => exact absurd hc Bool.true_eq_false.mp

namespace PgTx

open Phase

theorem serves_follows {write may : Bool} {d : TxAsync (KvsResult CallAnswer)}
    (h : Serves write may d) : d.Follows (May false) next (Ends false) .idle := by
  cases h with
  | rejected e => exact rfl
  | reads f body hbody =>
    exact withTx_follows lock_follows fun tx ↦
      (hbody tx).mono (fun _ _ ↦ Sends.quiet) fun _ ↦ PgTransaction.SameMode.conn
  | writes f body hbody =>
    exact withTx_follows (lockWrite_follows write) fun tx ↦
      (hbody tx).mono (fun _ _ ↦ Sends.quiet) fun _ ↦ PgTransaction.SameMode.conn

/-- What the closing call does with the transaction it owns: one `COMMIT` or `ROLLBACK`, then the
guard, and a result that is not the one of a closed transaction. -/
def Closes (a : TxAsync (Result Unit × PgTransaction)) : Prop :=
  a.Follows (May true) next (fun φ r ↦ φ = .released ∧ r.1 ≠ .error .txClosed) .owning

theorem onOwned_close_closes {inner : PgTransaction → TxConn → Async (Result Unit)}
    {c : Command Stmt} (hc : c = .commit ∨ c = .rollback) (hinner : PgTransaction.EndsBy c inner)
    {tx : PgTransaction} (hconn : tx.conn.isSome = true) : Closes (onOwned (tx.close inner)) := by
  obtain ⟨conn, hconn⟩ := Option.isSome_iff_exists.mp hconn
  rw [Closes, hinner.close_eq hconn]
  refine ⟨by obtain rfl | rfl := hc; exacts [.commit _ rfl rfl, .rollback _ rfl rfl],
    fun r φ hφ ↦ ?_⟩
  obtain rfl := Option.some.inj hφ
  refine ⟨.release, fun _ φ hφ ↦ ?_⟩
  obtain rfl := Option.some.inj hφ
  refine ⟨rfl, ?_⟩
  rcases r with e | p
  · exact fun h ↦ PgStoreError.fromSqlx_ne_txClosed none e (Except.error.inj h)
  · exact fun h ↦ by simp [Except.mapError, Except.map] at h

theorem mapError_ne_transactionFinished {r : Result Unit} (h : r ≠ .error .txClosed)
    (f : Unit → CallAnswer) :
    (r.mapError KvsError.ofPgStoreError).map f ≠ .error .transactionFinished := by
  rcases r with e | u
  · intro he
    have he' := KvsError.ofPgStoreError_eq_transactionFinished.mp (Except.error.inj he)
    exact h (congrArg _ he')
  · exact fun he ↦ nomatch he

theorem close_follows {inner : PgTransaction → Async (Result Unit × PgTransaction)}
    {settle : Result Unit → TxAsync Unit}
    (hinner : ∀ tx : PgTransaction, tx.conn.isSome = true → Closes (onOwned (inner tx)))
    (hsettle : ∀ r, settle r = addCommitted ∨ settle r = addRolledBack) (f : Unit → CallAnswer) :
    (Call.wrap f (close inner settle)).Follows (May true) next (Ends true) .idle := by
  refine Dialogue.Follows.map ⟨.look, fun done φ hφ ↦ ?_⟩
  cases done with
  | true =>
    obtain rfl : refused = φ := Option.some.inj hφ
    exact rfl
  | false =>
    obtain rfl : idle = φ := Option.some.inj hφ
    refine ⟨.wait, fun _ φ hφ ↦ ?_⟩
    obtain rfl := Option.some.inj hφ
    refine ⟨.claim, fun done φ hφ ↦ ?_⟩
    cases done with
    | true =>
      obtain rfl : shut = φ := Option.some.inj hφ
      refine ⟨.turnBack, fun _ φ hφ ↦ ?_⟩
      obtain rfl := Option.some.inj hφ
      exact rfl
    | false =>
      obtain rfl : claimed = φ := Option.some.inj hφ
      refine ⟨.take, fun txOpt φ hφ ↦ ?_⟩
      cases txOpt with
      | none => exact nomatch hφ
      | some tx =>
        dsimp only [next, Option.elim_some] at hφ
        split_ifs at hφ with hconn
        obtain rfl := Option.some.inj hφ
        refine ⟨.giveBack, fun _ φ hφ ↦ ?_⟩
        obtain rfl := Option.some.inj hφ
        change Dialogue.Follows _ _ _ _ (onOwned (inner tx) >>= fun r ↦ settle r.1 >>= fun _ ↦
          pure (r.1.mapError KvsError.ofPgStoreError))
        refine Dialogue.Follows.bind (hinner tx hconn) ?_
        rintro φ ⟨r, tx'⟩ ⟨rfl, hr⟩
        obtain hs | hs := hsettle r <;> rw [hs]
        · refine ⟨.countCommitted, fun _ φ hφ ↦ ?_⟩
          obtain rfl := Option.some.inj hφ
          exact ⟨rfl, mapError_ne_transactionFinished hr f⟩
        · refine ⟨.countRolledBack, fun _ φ hφ ↦ ?_⟩
          obtain rfl := Option.some.inj hφ
          exact ⟨rfl, mapError_ne_transactionFinished hr f⟩

end PgTx

open PgTx Phase in
/-- **Every call follows the protocol.** -/
theorem Call.follows (write : Bool) (c : Call) :
    (c.code write).Follows (protocol.may c) protocol.next (protocol.ends c) (protocol.start c) := by
  cases hc : c.isCloser with
  | false =>
    change (c.code write).Follows (May c.isCloser) next (Ends c.isCloser) .idle
    rw [hc]
    exact serves_follows (c.serves write hc)
  | true =>
    cases c with
    | commit =>
      refine close_follows (fun _ ↦ onOwned_close_closes (Or.inl rfl)
        PgTransaction.endsBy_commitInner) (fun r ↦ ?_) _
      cases r with
      | error e => exact Or.inr rfl
      | ok u => exact Or.inl rfl
    | cancel =>
      exact close_follows (fun _ ↦ onOwned_close_closes (Or.inr rfl)
        PgTransaction.endsBy_cancelInner) (fun _ ↦ Or.inr rfl) _
    | _ => exact absurd hc Bool.false_ne_true

end SurrealPg
