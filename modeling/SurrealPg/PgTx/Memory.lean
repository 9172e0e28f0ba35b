import SurrealPg.PgTx.Protocol

/-!
# The memory of a `PgTx`

Any number of calls on one `PgTx`, interleaved at every access to its memory and at every
statement. The server may answer a statement in any way, and calls may be dropped at their await
points. Since every call follows the protocol, a step is a move of one call from one phase to the
next, and everything that can happen is a list of sixteen moves and four ways to leave.
-/

namespace SurrealPg

open Postgres Semantics

/-! ## What the calls share -/

/-- The fields of a `PgTx` that its calls share. -/
structure TxMem (ι : Type) where
  /-- What is behind the mutex. -/
  inner : Option PgTransaction
  done : Bool
  /-- The call that holds the mutex. -/
  holder : Option ι

/-- `PgTx::new` over a transaction just begun. -/
def TxMem.opened {ι : Type} (conn : TxConn) (write : Bool) : TxMem ι :=
  ⟨some ⟨some conn, write, 0, []⟩, false, none⟩

/-- How the memory serves the calls. The flag is read with relaxed ordering, so a load may miss a
swap that has happened; the swap itself is atomic. A server answers statements as it pleases. -/
def txServer (ι : Type) : Server ι TxReq TxReq.Answer TxNote (TxMem ι) where
  answer i m
    | .loadDone, done, m' => (done = true → m.done = true) ∧ m' = m
    | .lock, _, m' => m.holder = none ∧ m' = { m with holder := some i }
    | .readInner, inner, m' => inner = m.inner ∧ m' = m
    | .writeInner tx, _, m' => m' = { m with inner := some tx }
    | .unlock, _, m' => m' = { m with holder := none }
    | .swapDone, done, m' => done = m.done ∧ m' = { m with done := true }
    | .takeInner, inner, m' => inner = m.inner ∧ m' = { m with inner := none }
    | .addCommitted, _, m' | .addRolledBack, _, m' | .tx _, _, m' => m' = m
  unwind _ m
    | .waiting, m' | .owning _, m' => m' = m
    | .guarded left, m' => m' = { m with inner := some left.self, holder := none }

abbrev TxEvent (ι : Type) := PoolEvent ι Call TxReq TxReq.Answer

abbrev TxPool (ι : Type) :=
  Pool ι Call TxReq TxReq.Answer TxNote (KvsResult CallAnswer) (TxMem ι)

/-! ## What a history shows -/

/-- A `COMMIT` or `ROLLBACK` on the connection. -/
def TxReq.isClose : TxReq → Bool
  | .tx (.sql .commit) | .tx (.sql .rollback) => true
  | _ => false

/-- A key-value or savepoint statement on the connection. -/
def TxReq.isStatement : TxReq → Bool
  | .tx (.sql (.run _)) => true
  | _ => false

namespace TxEvent

variable {ι : Type}

/-- The swap that found the flag down. -/
def isClaim : TxEvent ι → Bool
  | .answered _ .swapDone done => !done
  | _ => false

/-- A request satisfying `P` was sent, and answered or given up on. -/
def sends (P : TxReq → Bool) : TxEvent ι → Bool
  | .answered _ q _ | .abandoned _ q => P q
  | .called .. => false

end TxEvent

variable {ι : Type}

/-- Call `i` has claimed the close. -/
def Claimed (tr : List (TxEvent ι)) (i : ι) : Prop := .answered i .swapDone false ∈ tr

/-- Call `i` was given the lock after the close had been claimed. -/
def LateLock (tr : List (TxEvent ι)) (i : ι) : Prop :=
  ∃ l r, tr = l ++ .answered i .lock () :: r ∧ ∃ j, Claimed l j

theorem claimed_append_singleton {tr : List (TxEvent ι)} {e : TxEvent ι} {i : ι} :
    Claimed (tr ++ [e]) i ↔ Claimed tr i ∨ e = .answered i .swapDone false := by
  rw [Claimed, List.mem_append, List.mem_singleton, Claimed, @eq_comm _ e]

theorem TxEvent.isClaim_iff {e : TxEvent ι} :
    e.isClaim = true ↔ ∃ i, e = .answered i .swapDone false := by
  constructor
  · intro h
    match e, h with
    | .answered i .swapDone false, _ => exact ⟨i, rfl⟩
  · rintro ⟨i, rfl⟩
    rfl

theorem exists_claimed_iff {tr : List (TxEvent ι)} :
    (∃ i, Claimed tr i) ↔ 0 < tr.countP TxEvent.isClaim := by
  rw [List.countP_pos_iff]
  constructor
  · rintro ⟨i, hi⟩
    exact ⟨_, hi, rfl⟩
  · rintro ⟨e, he, hclaim⟩
    obtain ⟨i, rfl⟩ := TxEvent.isClaim_iff.mp hclaim
    exact ⟨i, he⟩

theorem lateLock_iff_after {tr : List (TxEvent ι)} {i : ι} :
    LateLock tr i ↔
      After (fun e ↦ ∃ j, e = .answered j .swapDone false) (· = .answered i .lock ()) tr := by
  constructor
  · rintro ⟨l, r, htr, j, hj⟩
    exact ⟨l, _, r, htr, rfl, _, hj, j, rfl⟩
  · rintro ⟨l, e, r, htr, rfl, e', he', j, rfl⟩
    exact ⟨l, r, htr, j, he'⟩

theorem LateLock.of_append_singleton {tr : List (TxEvent ι)} {e : TxEvent ι} {i : ι}
    (h : LateLock (tr ++ [e]) i) :
    LateLock tr i ∨ e = .answered i .lock () ∧ ∃ j, Claimed tr j := by
  rw [lateLock_iff_after, after_snoc] at h
  rcases h with h | ⟨he, e', he', j, rfl⟩
  · exact Or.inl (lateLock_iff_after.mpr h)
  · exact Or.inr ⟨he, j, he'⟩

theorem LateLock.exists_claimed {tr : List (TxEvent ι)} {i : ι} (h : LateLock tr i) :
    ∃ j, Claimed tr j := by
  obtain ⟨e, he, j, rfl⟩ := (lateLock_iff_after.mp h).exists_left
  exact ⟨j, he⟩

/-! ## Moves -/

namespace Phase

/-- The phases in which a call holds the lock. -/
def holdsLock : Phase → Bool
  | locked | inside | written | shut | claimed | taken => true
  | _ => false

/-- The phases of a call that has claimed the close. -/
def hasClaimed : Phase → Bool
  | claimed | taken | owning | closing | released | settled => true
  | _ => false

/-- The phases of a call that has claimed the close and not sent anything yet. -/
def beforeClose : Phase → Bool
  | claimed | taken | owning => true
  | _ => false

theorem hasClaimed_of_beforeClose {φ : Phase} (h : φ.beforeClose = true) :
    φ.hasClaimed = true := by
  cases φ <;> first | rfl | exact nomatch h

/-- The phases of an operation that has found the transaction open and holds the lock. -/
def onOpen : Phase → Bool
  | inside | written => true
  | _ => false

/-- The phases a call can be in once it was given the lock too late. -/
def tooLate : Phase → Bool
  | locked | shut | refused => true
  | _ => false

end Phase

open Phase

/-- The moves of call `i`: what it sees, and what becomes of the memory and of its phase. -/
inductive Move (i : ι) (m : TxMem ι) : Phase → TxEvent ι → TxMem ι → Phase → Prop
  | look : Move i m idle (.answered i .loadDone false) m idle
  | lookShut : m.done = true → Move i m idle (.answered i .loadDone true) m refused
  | wait : m.holder = none →
    Move i m idle (.answered i .lock ()) { m with holder := some i } locked
  | peekOpen (tx : PgTransaction) : m.inner = some tx →
    Move i m locked (.answered i .readInner (some tx)) m inside
  | peekShut : m.inner = none → Move i m locked (.answered i .readInner none) m shut
  | statement (c : Statement Stmt) (r : Except SqlxError Reply) :
    Move i m inside (.answered i (.tx (.sql (.run c))) r) m inside
  | putBack (tx : PgTransaction) : tx.conn.isSome = true →
    Move i m inside (.answered i (.writeInner tx) ()) { m with inner := some tx } written
  | leave : Move i m written (.answered i .unlock ()) { m with holder := none } served
  | turnBack : Move i m shut (.answered i .unlock ()) { m with holder := none } refused
  | claim : m.done = false →
    Move i m locked (.answered i .swapDone false) { m with done := true } claimed
  | claimLate : m.done = true → Move i m locked (.answered i .swapDone true) m shut
  | take (tx : PgTransaction) : m.inner = some tx →
    Move i m claimed (.answered i .takeInner (some tx)) { m with inner := none } taken
  | giveBack : Move i m taken (.answered i .unlock ()) { m with holder := none } owning
  | commit (r : Except SqlxError Reply) :
    Move i m owning (.answered i (.tx (.sql .commit)) r) m closing
  | rollback (r : Except SqlxError Reply) :
    Move i m owning (.answered i (.tx (.sql .rollback)) r) m closing
  | release : Move i m closing (.answered i (.tx .releaseActive) ()) m released
  | countCommitted : Move i m released (.answered i .addCommitted ()) m settled
  | countRolledBack : Move i m released (.answered i .addRolledBack ()) m settled

/-- What dropping call `i` at an await point does. -/
inductive Leave (i : ι) (m : TxMem ι) : Phase → TxEvent ι → TxMem ι → Prop
  | waiting : Leave i m idle (.abandoned i .lock) m
  | statement (c : Statement Stmt) (tx : PgTransaction) : tx.conn.isSome = true →
    Leave i m inside (.abandoned i (.tx (.sql (.run c))))
      { m with inner := some tx, holder := none }
  | commit : Leave i m owning (.abandoned i (.tx (.sql .commit))) m
  | rollback : Leave i m owning (.abandoned i (.tx (.sql .rollback))) m

section

variable {m m' : TxMem ι} {i j : ι} {c : Call} {φ φ' : Phase} {e : TxEvent ι}

theorem Leave.of_may {q : TxReq} {u : TxNote} (hmay : May c.isCloser φ q (some u))
    (hun : (txServer ι).unwind i m u m') : Leave i m φ (.abandoned i q) m' := by
  generalize c.isCloser = closer at hmay
  cases hmay with
  | wait =>
    obtain rfl : m' = m := hun
    exact .waiting
  | statement s left hconn =>
    obtain rfl := hun
    exact .statement s left.self hconn
  | commit left =>
    obtain rfl : m' = m := hun
    exact .commit
  | rollback left =>
    obtain rfl : m' = m := hun
    exact .rollback

/-! ## What a move can change and show -/

/-- A move takes and gives back the lock as the phases say, and only from the call itself. -/
theorem Move.holder (hm : Move i m φ e m' φ') (hφ : m.holder = some i ↔ φ.holdsLock = true) :
    (m'.holder = some i ↔ φ'.holdsLock = true) ∧
      ∀ j ≠ i, (m'.holder = some j ↔ m.holder = some j) := by
  cases hm <;> grind [Phase.holdsLock]

theorem Leave.holder (hl : Leave i m φ e m') (hφ : m.holder = some i ↔ φ.holdsLock = true) :
    m'.holder ≠ some i ∧ ∀ j ≠ i, (m'.holder = some j ↔ m.holder = some j) := by
  cases hl <;> grind [Phase.holdsLock]

/-- What is behind the lock changes only in the hands of the call that holds it. -/
theorem Move.frame (hm : Move i m φ e m' φ') :
    φ.holdsLock = true ∨ m'.inner = m.inner ∧ m'.done = m.done := by
  cases hm <;> simp [Phase.holdsLock]

theorem Move.done (hm : Move i m φ e m' φ') :
    m'.done.toNat = m.done.toNat + if e.isClaim = true then 1 else 0 := by
  cases hm <;> simp_all [TxEvent.isClaim]

theorem Move.caller (hm : Move i m φ e m' φ') (hj : j ≠ i) :
    e ≠ .answered j .swapDone false ∧ e ≠ .answered j .lock () := by
  cases hm <;> simp [hj.symm]

theorem Move.done_eq_false (hm : Move i m φ e m' φ') (he : e.isClaim = true) :
    m.done = false := by
  cases hm <;> first | assumption | exact nomatch he

theorem Move.beforeClose_of_sends (hm : Move i m φ e m' φ')
    (he : e.sends TxReq.isClose = true) : φ.beforeClose = true := by
  cases hm <;> first | rfl | exact nomatch he

theorem Move.onOpen_of_sends (hm : Move i m φ e m' φ')
    (he : e.sends TxReq.isStatement = true) : φ.onOpen = true := by
  cases hm <;> first | rfl | exact nomatch he

theorem Move.hasClaimed_iff (hm : Move i m φ e m' φ') :
    φ'.hasClaimed = true ↔ φ.hasClaimed = true ∨ e = .answered i .swapDone false := by
  cases hm <;> simp [hasClaimed]

theorem Move.beforeClose (hm : Move i m φ e m' φ') (hφ' : φ'.beforeClose = true) :
    e.sends TxReq.isClose = false ∧ (φ.beforeClose = true ∨ m.done = false) := by
  cases hm with
  | claim hdone => exact ⟨rfl, Or.inr hdone⟩
  | take | giveBack => exact ⟨rfl, Or.inl rfl⟩
  | _ => exact nomatch hφ'

/-- Given the lock too late, a call is turned back. -/
theorem Move.tooLate (hm : Move i m φ e m' φ') (hφ : φ.tooLate = true) (hdone : m.done = true)
    (hinner : φ = .locked → m.inner = none) : φ'.tooLate = true := by
  cases hm with
  | peekShut | turnBack | claimLate => rfl
  | peekOpen tx htx => exact nomatch htx.symm.trans (hinner rfl)
  | claim hm => exact nomatch hm.symm.trans hdone
  | _ => exact nomatch hφ

theorem Move.eq_locked (hm : Move i m φ (.answered i .lock ()) m' φ') : φ' = .locked := by
  cases hm
  rfl

theorem Leave.beforeClose_of_sends (hl : Leave i m φ e m')
    (he : e.sends TxReq.isClose = true) : φ.beforeClose = true := by
  cases hl <;> first | rfl | exact nomatch he

theorem Leave.onOpen_of_sends (hl : Leave i m φ e m')
    (he : e.sends TxReq.isStatement = true) : φ.onOpen = true := by
  cases hl <;> first | rfl | exact nomatch he

theorem Leave.isClaim_eq_false (hl : Leave i m φ e m') :
    e.isClaim = false ∧ m'.done = m.done := by
  cases hl <;> exact ⟨rfl, rfl⟩

end

end SurrealPg
