import SurrealPg.Postgres.Mvcc
import SurrealPg.Semantics.Pool
import SurrealPg.Store.Admission

/-!
# Transactions side by side

A transaction from its `begin` to its end, on a server on which any number of others are under way.
What `begin` asks of the store may be answered anyhow, except that a `BEGIN` that succeeds opens a
transaction of the isolation level it names. A statement about one row follows the rules of
concurrent transactions; alone, it does what it does to a table. Whether a `COMMIT` that is not
acknowledged has taken effect is open.
-/

namespace SurrealPg

open Postgres Semantics

/-! ## Statements about one row -/

namespace Stmt

/-- The row a statement is about, and what it does there. -/
def access : Stmt → Option (Key × Access Val)
  | existsFlag key | get key => some (key, .read)
  | set key val => some (key, .write (.upsert val))
  | put key val => some (key, .write (.insert val))
  | putc key val expected => some (key, .write (.update (· == expected) val))
  | del key => some (key, .write (.delete fun _ ↦ true))
  | delc key expected => some (key, .write (.delete (· == expected)))
  | _ => none

/-- The reply in which a statement reports. -/
def reply : Stmt → Report Val → Reply
  | existsFlag _, .found row => ⟨if row.isSome then [.flag] else [], 0⟩
  | _, .found row => ⟨row.toList.map .val, 0⟩
  | _, .affected hit => ⟨[], hit.toNat⟩

@[simp] theorem reply_affected (s : Stmt) (hit : Bool) :
    s.reply (.affected hit) = ⟨[], hit.toNat⟩ := by
  cases s <;> rfl

theorem effect_update_of_ne {row : Option Val} {v expected : Val} (h : row ≠ some expected) :
    (RowWrite.update (· == expected) v).effect row = none := by
  cases row with
  | none => rfl
  | some w =>
    rw [RowWrite.effect, if_neg]
    intro heq
    exact h (congrArg some (eq_of_beq heq))

theorem effect_delete_of_ne {row : Option Val} {expected : Val} (h : row ≠ some expected) :
    (RowWrite.delete (· == expected)).effect row = none := by
  cases row with
  | none => rfl
  | some w =>
    rw [RowWrite.effect, if_neg]
    intro heq
    exact h (congrArg some (eq_of_beq heq))

theorem effect_insert_iff {row x : Option Val} {v : Val} :
    (RowWrite.insert v).effect row = some x ↔ row = none ∧ some v = x := by
  cases row with
  | none => simp [RowWrite.effect]
  | some w => simp [RowWrite.effect]

theorem effect_update_iff {row x : Option Val} {v expected : Val} :
    (RowWrite.update (· == expected) v).effect row = some x ↔ row = some expected ∧ some v = x := by
  by_cases h : row = some expected
  · simp [h, RowWrite.effect]
  · simp [effect_update_of_ne h, h]

theorem effect_delete_iff {row x : Option Val} {expected : Val} :
    (RowWrite.delete (· == expected)).effect row = some x ↔ row = some expected ∧ none = x := by
  by_cases h : row = some expected
  · simp [h, RowWrite.effect]
  · simp [effect_delete_of_ne h, h]

/-- **A statement about one row reads and writes that row only**, in the way its access says. -/
theorem exec_of_access {s : Stmt} {k : Key} {a : Access Val} (h : s.access = some (k, a))
    (d : Database) :
    ∃ d', s.exec d = .ok (s.reply (a.alone (d.kv.get? k)).1, d') ∧
      d'.kv.get? k = (a.alone (d.kv.get? k)).2 ∧
        ∀ k', k' ≠ k → d'.kv.get? k' = d.kv.get? k' := by
  cases s with
  | existsFlag key =>
    obtain ⟨rfl, rfl⟩ := Prod.mk.inj (Option.some.inj h)
    exact ⟨d, rfl, rfl, fun _ _ ↦ rfl⟩
  | get key =>
    obtain ⟨rfl, rfl⟩ := Prod.mk.inj (Option.some.inj h)
    exact ⟨d, rfl, rfl, fun _ _ ↦ rfl⟩
  | set key val =>
    obtain ⟨rfl, rfl⟩ := Prod.mk.inj (Option.some.inj h)
    exact ⟨_, rfl, Table.get?_upsert_self .., fun k' hk ↦ Table.get?_upsert_of_ne _ _ hk⟩
  | put key val =>
    obtain ⟨rfl, rfl⟩ := Prod.mk.inj (Option.some.inj h)
    rw [exec]
    cases hrow : d.kv.get? key with
    | some w => exact ⟨d, rfl, hrow, fun _ _ ↦ rfl⟩
    | none => exact ⟨_, rfl, Table.get?_upsert_self .., fun k' hk ↦ Table.get?_upsert_of_ne _ _ hk⟩
  | putc key val expected =>
    obtain ⟨rfl, rfl⟩ := Prod.mk.inj (Option.some.inj h)
    rw [exec]
    by_cases hrow : d.kv.get? key = some expected
    · rw [if_pos hrow, hrow, Access.alone, RowWrite.effect, if_pos (beq_self_eq_true _)]
      exact ⟨_, rfl, Table.get?_upsert_self .., fun k' hk ↦ Table.get?_upsert_of_ne _ _ hk⟩
    · rw [if_neg hrow, Access.alone, effect_update_of_ne hrow]
      exact ⟨d, rfl, rfl, fun _ _ ↦ rfl⟩
  | del key =>
    obtain ⟨rfl, rfl⟩ := Prod.mk.inj (Option.some.inj h)
    rw [exec]
    refine ⟨{ d with kv := d.kv.erase key }, ?_, ?_, fun k' hk ↦ Table.get?_erase_of_ne _ hk⟩
    · cases d.kv.get? key <;> rfl
    · rw [Table.get?_erase_self]
      cases d.kv.get? key <;> rfl
  | delc key expected =>
    obtain ⟨rfl, rfl⟩ := Prod.mk.inj (Option.some.inj h)
    rw [exec]
    by_cases hrow : d.kv.get? key = some expected
    · rw [if_pos hrow, hrow, Access.alone, RowWrite.effect, if_pos (beq_self_eq_true _)]
      exact ⟨_, rfl, Table.get?_erase_self .., fun k' hk ↦ Table.get?_erase_of_ne _ hk⟩
    · rw [if_neg hrow, Access.alone, effect_delete_of_ne hrow]
      exact ⟨d, rfl, rfl, fun _ _ ↦ rfl⟩
  | _ => exact (Option.some_ne_none _ h.symm).elim

/-- Both levels agree: a statement that sees the newest version of its row replies what it replies
over a table with that row, and leaves the row as it leaves it there. -/
theorem exec_of_sees {ι : Type} [DecidableEq ι] {s : Stmt} {k : Key} {a : Access Val}
    (h : s.access = some (k, a)) {c c' : Cluster ι Key Val} {i : ι} {t : Txn Key Val}
    {r : Report Val} (hexec : c.Exec i t k a r c') (hsees : c.sees t k = c.newest t k)
    {d : Database} (hd : d.kv.get? k = c.newest t k) :
    ∃ d' t', s.exec d = .ok (s.reply r, d') ∧ c'.txn i = some t' ∧
      d'.kv.get? k = c'.newest t' k := by
  obtain ⟨d', hd', hrow, -⟩ := exec_of_access h d
  obtain ⟨rfl, t', ht', hnew⟩ := hexec.eq_alone hsees
  rw [hd] at hd' hrow
  exact ⟨d', t', hd', ht', hrow.trans hnew.symm⟩

end Stmt

/-! ## The server -/

/-- A request of a transaction, from its `begin` on. -/
inductive DbReq
  | store (q : StoreReq)
  | tx (q : Request)
  deriving DecidableEq

abbrev DbReq.Answer : DbReq → Type
  | .store q => q.Answer
  | .tx q => q.Answer

/-- A program that begins a transaction and uses it. Its futures are run to their end. -/
abbrev DbAsync (α : Type) := Dialogue DbReq DbReq.Answer Unit α

/-- `begin(true)` -/
def opened (s : PgStore) : DbAsync (Result PgTransaction) :=
  (s.begin true).embed .store (fun _ r ↦ r) fun _ ↦ ()

/-- An operation of the transaction. -/
def onTx {α : Type} (a : Async α) : DbAsync α := a.embed .tx (fun _ r ↦ r) fun _ ↦ ()

/-- The level of the transactions a store begins. -/
def PgIsolation.level : PgIsolation → Isolation
  | readCommitted => .readCommitted
  | repeatableRead => .repeatableRead
  | serializable => .serializable

theorem PgIsolation.ofSql_asSql (l : PgIsolation) : Isolation.ofSql l.asSql = some l.level := by
  cases l <;> decide +kernel

variable {ι : Type} [DecidableEq ι]

/-- How transaction `i` may be answered, and what that makes of the cluster. -/
inductive Answers (i : ι) (c : Cluster ι Key Val) :
    (q : DbReq) → q.Answer → Cluster ι Key Val → Prop
  | store {q : StoreReq} (r : q.Answer) : (∀ level, q ≠ .execute (.begin level)) →
    Answers i c (.store q) r c
  | begin {level : String} {l : Isolation} : Isolation.ofSql level = some l →
    Answers i c (.store (.execute (.begin level))) (.ok ()) (c.put i (.begin l))
  | beginRefused {level : String} (e : SqlxError) :
    Answers i c (.store (.execute (.begin level))) (.error e) c
  | run {t : Txn Key Val} {stmt : Stmt} {k : Key} {a : Access Val} {r : Report Val}
      {c' : Cluster ι Key Val} : c.txn i = some t → t.aborted = false →
    stmt.access = some (k, a) → c.Exec i t k a r c' →
    Answers i c (.tx (.sql (.run (.data stmt)))) (.ok (stmt.reply r)) c'
  | refuse {t : Txn Key Val} (stmt : Statement Stmt) (e : SqlxError) : c.txn i = some t →
    Answers i c (.tx (.sql (.run stmt))) (.error e) (c.put i { t with aborted := true })
  | commit {t : Txn Key Val} (r : Except SqlxError Reply) : c.txn i = some t →
    t.aborted = false → Answers i c (.tx (.sql .commit)) r (c.commit i t)
  /-- `COMMIT` of an aborted transaction, or one that is refused. -/
  | discard {t : Txn Key Val} (r : Except SqlxError Reply) : c.txn i = some t →
    t.aborted = true ∨ r.isOk = false → Answers i c (.tx (.sql .commit)) r (c.rollback i)
  | rollback (r : Except SqlxError Reply) : Answers i c (.tx (.sql .rollback)) r (c.rollback i)
  | release : Answers i c (.tx .releaseActive) () c

/-- The server of a pool of transactions. -/
def server : Server ι DbReq DbReq.Answer Unit (Cluster ι Key Val) where
  answer := Answers
  unwind _ _ _ _ := False

namespace Answers

variable {i j : ι} {c c' : Cluster ι Key Val} {q : DbReq} {r : q.Answer}

theorem congr {r' : q.Answer} {c'' : Cluster ι Key Val} (h : Answers i c q r c') (hr : r = r')
    (hc : c' = c'') : Answers i c q r' c'' := by
  rw [← hr, ← hc]
  exact h

theorem txn_of_ne (h : Answers i c q r c') (hj : j ≠ i) : c'.txn j = c.txn j := by
  cases h with
  | store | beginRefused | release => rfl
  | «begin» | refuse => exact Cluster.put_txn_of_ne hj
  | commit => exact Cluster.commit_txn_of_ne hj
  | discard | rollback => exact Cluster.rollback_txn_of_ne hj
  | run _ _ _ hexec =>
    cases hexec with
    | read | skip | keep | hit => exact Cluster.put_txn_of_ne hj

theorem rows_eq (h : Answers i c q r c') (hq : q ≠ .tx (.sql .commit)) : c'.rows = c.rows := by
  cases h with
  | store | beginRefused | release | «begin» | refuse | rollback => rfl
  | commit | discard => exact absurd rfl hq
  | run _ _ _ hexec =>
    cases hexec with
    | read | skip | keep | hit => rfl

theorem wellFormed (h : Answers i c q r c') (hc : c.WellFormed) : c'.WellFormed := by
  cases h with
  | store | beginRefused | release => exact hc
  | «begin» => exact hc.begin i _
  | refuse _ _ ht => exact hc.abort ht
  | commit => exact hc.commit i _
  | discard | rollback => exact hc.rollback i
  | run ht _ _ hexec => exact hc.exec ht hexec

end Answers

/-! ## The course of a transaction -/

/-- `BEGIN` has succeeded. -/
def BeginPhase.hasBegun : BeginPhase → Bool
  | begun | started | counted => true
  | _ => false

/-- A transaction is being begun, or is somewhere in its own phases `X`. -/
inductive Course (X : Type)
  | opening (φ : BeginPhase)
  | under (x : X)

namespace Course

variable {X α : Type} {s : PgStore} {may : Option X → Request → Prop}
  {step : Option X → (q : Request) → q.Answer → Option X}

/-- What may be asked: what `begin` asks for, with the messages of the store, and then what the
transaction's own phase allows. -/
def May (s : PgStore) (may : Option X → Request → Prop) : Course X → DbReq → Option Unit → Prop
  | opening φ, .store q, _ => ∃ u, BeginPhase.May s.mode φ q u ∧ s.Sends q u
  | opening φ, .tx q, _ => φ = .counted ∧ may none q
  | under _, .store _, _ => False
  | under x, .tx q, _ => may (some x) q

/-- The phase an answer leads to. -/
def next (step : Option X → (q : Request) → q.Answer → Option X) :
    Course X → (q : DbReq) → q.Answer → Option (Course X)
  | opening φ, .store q => fun r ↦ (BeginPhase.next φ q r).map opening
  | opening _, .tx q => fun r ↦ (step none q r).map under
  | under _, .store _ => fun _ ↦ none
  | under x, .tx q => fun r ↦ (step (some x) q r).map under

/-- **Every transaction starts with the phases of `begin`**, and goes on from their end. -/
theorem follows_opened {ends : Course X → α → Prop} {rest : Result PgTransaction → DbAsync α}
    (hok : ∀ conn, (rest (.ok ⟨some conn, true, 0, []⟩)).Follows (May s may) (next step) ends
      (opening .counted))
    (herr : ∀ e φ, (rest (.error e)).Follows (May s may) (next step) ends (opening φ)) :
    (opened s >>= rest).Follows (May s may) (next step) ends (opening .outside) := by
  have hbegin : (opened s).Follows (May s may) (next step)
      (fun ψ a ↦ ∃ φ, opening φ = ψ ∧ BeginPhase.Ends true φ a) (opening .outside) :=
    ((PgStore.begin_follows s true).and_all (PgStore.begin_sends s true)).embed_phase
      (fun φ q u hmay ↦ ⟨u, hmay⟩) fun φ q x ψ hψ ↦ Option.map_eq_some_iff.mp hψ
  refine hbegin.bind ?_
  rintro ψ a ⟨φ, rfl, hends⟩
  cases φ with
  | counted =>
    obtain ⟨conn, rfl⟩ := hends
    exact hok conn
  | outside | admitted =>
    obtain ⟨e, rfl⟩ := hends
    exact herr e _
  | connected | failed | begun | started => exact hends.elim

/-- A commit or cancel sends what closes the transaction and lets the guard go, and it succeeds if
the command does. -/
theorem follows_close {post : Course X → Result Unit × PgTransaction → Prop}
    {inner : PgTransaction → TxConn → Async (Result Unit)} {c : Postgres.Command Stmt}
    (hinner : PgTransaction.EndsBy c inner) {tx : PgTransaction} {conn : TxConn}
    (hconn : tx.conn = some conn) {x : X} (hmay : may (some x) (.sql c))
    (hclosed : ∀ r y, step (some x) (.sql c) r = some y → may (some y) .releaseActive ∧
      ∀ z, step (some y) .releaseActive () = some z →
        ∀ a : Result Unit × PgTransaction, a.1.isOk = r.isOk → post (under z) a) :
    (onTx (tx.close inner)).Follows (May s may) (next step) post (under x) := by
  rw [hinner.close_eq hconn]
  refine ⟨hmay, fun r x' hx ↦ ?_⟩
  obtain ⟨y, hy, rfl⟩ := Option.map_eq_some_iff.mp hx
  obtain ⟨hrelease, hpost⟩ := hclosed r y hy
  refine ⟨hrelease, fun u z' hz' ↦ ?_⟩
  obtain ⟨z, hz, rfl⟩ := Option.map_eq_some_iff.mp hz'
  exact hpost z hz _ (by cases r <;> rfl)

end Course

/-- Where the transaction of a `begin` in phase `φ` is. -/
def Opening (s : PgStore) (c : Cluster ι Key Val) (i : ι) (φ : BeginPhase) : Prop :=
  c.txn i = if φ.hasBegun then some (.begin s.isolationLevel.level) else none

/-- **A transaction is open, untouched and of the level of the store** from the answer to its
`BEGIN` on. -/
theorem Answers.opening {i : ι} {c c' : Cluster ι Key Val} {s : PgStore} {mode : ConnectionMode}
    {φ : BeginPhase} {q : StoreReq} {r : q.Answer} {u : Option StoreNote}
    (h : Answers i c (.store q) r c') (hmay : BeginPhase.May mode φ q u) (hsends : s.Sends q u)
    (hφ : Opening s c i φ) : ∃ φ', BeginPhase.next φ q r = some φ' ∧ Opening s c' i φ' := by
  -- a request that is not `BEGIN` changes nothing, and does not get past it
  have hstill : ∀ φ', (∀ level, q ≠ .execute (.begin level)) → φ'.hasBegun = φ.hasBegun →
      Opening s c' i φ' := by
    intro φ' hq hφ'
    have hc : c' = c := by
      cases h with
      | store => rfl
      | «begin» | beginRefused => exact absurd rfl (hq _)
    rw [Opening, hφ', hc]
    exact hφ
  cases hmay with
  | «begin» level =>
    have hlevel : level = s.isolationLevel.asSql := by
      rcases hsends with heq | heq
      · exact RawSql.begin.inj heq
      · exact nomatch heq
    cases h with
    | store r hne => exact absurd rfl (hne level)
    | «begin» hl =>
      rw [hlevel, PgIsolation.ofSql_asSql] at hl
      rw [← Option.some.inj hl]
      exact ⟨.begun, rfl, Cluster.put_txn_self⟩
    | beginRefused e => exact ⟨.failed, rfl, hφ⟩
  | look hlook =>
    refine ⟨bif r then .outside else .admitted, ?_, hstill _ nofun ?_⟩
    · rcases hlook with rfl | rfl <;> rfl
    · rcases hlook with rfl | rfl <;> cases r <;> rfl
  | acquire | connect | session =>
    refine ⟨_, rfl, hstill _ nofun ?_⟩
    split_ifs <;> rfl
  | poolSize | loadActive | sleep | keepalive | rollback | returnConn | countStarted |
      countActive =>
    exact ⟨_, rfl, hstill _ nofun rfl⟩

/-! ## A `begin` that succeeds -/

/-- A pooled store with the default configuration but for its isolation level. -/
def PgStore.withLevel (l : PgIsolation) : PgStore :=
  { PgStore.withDefaults .pooled with isolationLevel := l }

theorem free_of_other {c : Cluster Bool Key Val} {i : Bool} {k : Key}
    (h : ∀ t, c.txn (!i) = some t → t.own k = none) : c.Free i k := by
  intro j t hj ht
  obtain rfl : j = !i := by
    cases i <;> cases j <;> first | rfl | exact absurd rfl hj
  exact h t ht

theorem run_opened {C α : Type} {l : PgIsolation} {code : C → DbAsync α}
    {rest : Result PgTransaction → DbAsync α}
    {p₀ p : Pool ι C DbReq DbReq.Answer Unit α (Cluster ι Key Val)}
    {tr : List (PoolEvent ι C DbReq DbReq.Answer)} (h : Run (Pool.Step server code) p₀ tr p)
    (i : ι) (c : C) (hi : p.task i = none) (hcode : code c = opened (.withLevel l) >>= rest) :
    ∃ tr', Run (Pool.Step server code) p₀ tr' (p.advance i
      (.live c (rest (.ok (.newPooled true)))) (p.mem.put i (.begin l.level))) := by
  have h := h.called i c hi
  rw [hcode] at h
  have h := h.answered i (.store .loadShuttingDown) false _ (Pool.advance_task_self ..)
    (.store _ nofun)
  have h := h.answered i (.store .loadShuttingDown) false _ (Pool.advance_task_self ..)
    (.store _ nofun)
  have h := h.answered i (.store .acquire) (.ok ()) _ (Pool.advance_task_self ..) (.store _ nofun)
  have h := h.answered i (.store (.execute (PgStore.withLevel l).beginSql)) (.ok ()) _
    (Pool.advance_task_self ..) (.begin l.ofSql_asSql)
  have h := h.answered i (.store .addStarted) () _ (Pool.advance_task_self ..) (.store _ nofun)
  have h := h.answered i (.store .addActive) () _ (Pool.advance_task_self ..) (.store _ nofun)
  simp only [Pool.advance_advance] at h
  exact ⟨_, h⟩

end SurrealPg
