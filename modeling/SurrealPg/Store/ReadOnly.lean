import SurrealPg.PgTx.Closing
import SurrealPg.Store.Active

/-!
# Read-only transactions

The server is not asked for a read-only block, so that a read-only transaction changes nothing is a
matter of what is sent to it. A `PgTransaction` checks its own mode before it sends a write; a
`PgTx` checks the one it was built with before it takes the lock. Either way a write is refused
before the server hears of it, and what the server does hear leaves every contents as it is.
-/

namespace SurrealPg

open Postgres Semantics

/-! ## The server -/

theorem engine_reads {s : Stmt} (h : s.isRead = true) : engine.Reads s := by
  intro d p d' hexec
  obtain ⟨r, hr⟩ := Stmt.exec_of_isRead h d
  obtain ⟨-, rfl⟩ := Prod.mk.inj (Except.ok.inj (hr.symm.trans hexec))
  rfl

/-- The contents `d` of the table survive a block in which the server is sent commands out of
`cs`, in whatever order and number they arrive and whichever of them it refuses. The driver may add
a `ROLLBACK`. -/
def Survives (cs : List (Command Stmt)) : Prop :=
  ∀ (d : Database) (sent : List (Command Stmt × Option SqlxError)),
    (∀ i ∈ sent, i.1 ∈ cs ∨ i.1 = .rollback) →
    (serve (fun s i ↦ Session.step engine i.2 s i.1) (.inBlock (Block.begin d)) sent).2.Holds d

theorem survives_of_isWrite {cs : List (Command Stmt)}
    (h : ∀ c ∈ cs, Request.isWrite (.sql c) = false) : Survives cs := by
  intro d sent hsent
  have hstart : (Session.inBlock (Block.begin d)).Holds d := ⟨rfl, rfl, List.forall_mem_nil _⟩
  generalize Session.inBlock (Block.begin d) = s at hstart
  induction sent generalizing s with
  | nil => exact hstart
  | cons i sent ih =>
    rw [List.forall_mem_cons] at hsent
    refine ih hsent.2 _ (hstart.step (fun x hx ↦ engine_reads ?_) i.2)
    rcases hsent.1 with hi | hi
    · have hwrite := h _ hi
      rw [hx, Request.isWrite] at hwrite
      simpa using hwrite
    · rw [hi] at hx
      exact absurd hx (by simp)

/-! ## A `PgTransaction` -/

namespace Deed

/-- The owner sees a write sent to the server. -/
def isWrite : Deed → Bool
  | answered q | abandoned q _ => q.isWrite
  | _ => false

theorem isWrite_of_command {e : Deed} {c : Command Stmt} (h : e.command = some c) :
    e.isWrite = Request.isWrite (.sql c) := by
  cases e with
  | answered q | abandoned q =>
    cases q with
    | sql c' =>
      obtain rfl : c' = c := Option.some.inj h
      rfl
    | releaseActive => exact absurd h (Option.some_ne_none c).symm
  | _ => exact absurd h (Option.some_ne_none c).symm

end Deed

/-- What the owner of a read-only transaction has seen when it is at `v`. -/
structure OwnerReadsOnly (tr : List Deed) (v : Value) : Prop where
  sends : ∀ e ∈ tr, e.isWrite = false
  survives : Survives (tr.filterMap Deed.command)
  /-- A write that is called while the transaction is open is refused at once. -/
  refused : ∀ tx o, v = ⟨.unpolled tx (.op o), false⟩ → o.isWrite = true →
    o.run tx = .done (.error .txReadOnly, tx)

theorem Op.run_of_readOnly {tx : PgTransaction} (hconn : tx.conn.isSome = true)
    (hmode : tx.writeable = false) {o : Op} (ho : o.isWrite = true) :
    o.run tx = .done (.error .txReadOnly, tx) := by
  have hcheck : tx.checkWriteable = .error .txReadOnly := by
    rw [PgTransaction.checkWriteable, hmode]
    rfl
  cases o with
  | set => rw [run, PgTransaction.set, PgTransaction.writeQuery, hcheck]; rfl
  | put => rw [run, PgTransaction.put, PgTransaction.writeQuery, hcheck]; rfl
  | del => rw [run, PgTransaction.del, PgTransaction.writeQuery, hcheck]; rfl
  | putc => rw [run, PgTransaction.putc.eq_def, hcheck]; rfl
  | delc => rw [run, PgTransaction.delc.eq_def, hcheck]; rfl
  | delr => rw [run, PgTransaction.delr, hcheck]; rfl
  | setm =>
    have hnone : tx.conn.isNone = false := by rw [← Option.not_isSome, hconn, Bool.not_true]
    rw [run, PgTransaction.setm, hnone, hcheck]
    rfl
  | _ => exact absurd ho Bool.false_ne_true

namespace Value

/-- A request that writes nothing, after which the transaction is still read-only. -/
structure Harmless (q : Request) (u : Option Unwound) : Prop where
  isWrite : q.isWrite = false
  left : ∀ left, u = some left → left.self.writeable = false

/-- What holds of a read-only transaction at every point of its life. -/
def ReadOnly (v : Value) : Prop :=
  match v.use with
  | .idle tx | .unpolled tx _ => tx.writeable = false
  | .running _ d => d.All Harmless fun r ↦ r.2.writeable = false
  | .dropped => True

theorem harmless_close {tx : PgTransaction} (h : tx.writeable = false)
    {inner : PgTransaction → TxConn → Async (Result Unit)}
    (hshuts : ∀ {conn}, tx.conn = some conn → (tx.close inner).All tx.Shuts fun r ↦ r.2 = tx.shut) :
    (tx.close inner).All Harmless fun r ↦ r.2.writeable = false := by
  have hshut : tx.shut.writeable = false := h
  cases hconn : tx.conn with
  | none =>
    rw [PgTransaction.close_of_none hconn]
    exact h
  | some conn =>
    refine (hshuts hconn).mono (fun q u hq ↦ ⟨hq.isWrite, fun left hleft ↦ ?_⟩) fun r hr ↦ ?_
    · rw [hq.left left hleft, hshut]
    · rw [hr, hshut]

theorem harmless_run {tx : PgTransaction} (h : tx.writeable = false) (m : Method) :
    (m.run tx).All Harmless fun r ↦ r.2.writeable = false := by
  cases m with
  | op o =>
    have hmay : (o.isWrite && tx.writeable) = false := by rw [h, Bool.and_false]
    refine (o.run_sends tx).mono (fun q u hq ↦ ?_) fun r hr ↦ by rw [hr.writeable, h]
    rw [hmay] at hq
    refine ⟨hq.isWrite_eq_false, fun left hleft ↦ ?_⟩
    obtain ⟨c, left', -, hmode, -, -⟩ := hq
    rw [← Option.some.inj hleft, hmode.writeable, h]
  | commit => exact Dialogue.All.map (harmless_close h PgTransaction.commit_shuts)
  | cancel => exact Dialogue.All.map (harmless_close h PgTransaction.cancel_shuts)

theorem ReadOnly.step {v v' : Value} {e : Deed} (h : v.ReadOnly) (hstep : Step v e v') :
    v'.ReadOnly ∧ e.isWrite = false := by
  cases hstep with
  | call m => exact ⟨h, rfl⟩
  | forget => exact ⟨h, rfl⟩
  | poll => exact ⟨harmless_run h _, rfl⟩
  | answer r => exact ⟨h.2 r, h.1.isWrite⟩
  | «return» => exact ⟨h, rfl⟩
  | abandon => exact ⟨h.1.left _ rfl, h.1.isWrite⟩
  | drop => exact ⟨trivial, rfl⟩

/-- **The owner of a read-only transaction** never sees a write. -/
theorem readsOnly_of_run {conn : TxConn} {tr : List Deed} {v : Value}
    (hrun : Run Step (opened false ⟨some conn, false, 0, []⟩) tr v) : OwnerReadsOnly tr v := by
  obtain ⟨hv, hsends⟩ : v.ReadOnly ∧ ∀ e ∈ tr, e.isWrite = false := by
    refine hrun.invariant (I := fun tr v ↦ v.ReadOnly ∧ ∀ e ∈ tr, e.isWrite = false)
      ⟨rfl, List.forall_mem_nil _⟩ ?_
    rintro tr v e v' ⟨hv, htr⟩ hstep
    obtain ⟨hv', he⟩ := hv.step hstep
    refine ⟨hv', fun e' he' ↦ ?_⟩
    rcases List.mem_append.mp he' with hmem | hmem
    · exact htr e' hmem
    · rw [List.mem_singleton.mp hmem, he]
  refine ⟨hsends, survives_of_isWrite fun c hc ↦ ?_, fun tx o hvo ho ↦ ?_⟩
  · obtain ⟨e, he, hce⟩ := List.mem_filterMap.mp hc
    rw [← Deed.isWrite_of_command hce, hsends e he]
  · have hsound := (sound_of_run hrun).1
    subst hvo
    exact Op.run_of_readOnly hsound hv ho

end Value

/-! ## A `PgTx` -/

/-- A write on the connection. -/
def TxReq.isWrite : TxReq → Bool
  | .tx q => q.isWrite
  | _ => false

/-- The command seen sent. -/
def TxEvent.command {ι : Type} : TxEvent ι → Option (Command Stmt)
  | .answered _ (.tx (.sql c)) _ | .abandoned _ (.tx (.sql c)) => some c
  | _ => none

/-- What the calls of a read-only `PgTx` have shown. -/
structure CallsReadOnly {ι : Type} (tr : List (TxEvent ι)) (p : TxPool ι) : Prop where
  sends : ∀ e ∈ tr, e.sends TxReq.isWrite = false
  survives : Survives (tr.filterMap TxEvent.command)
  /-- A write is refused: because the transaction is read-only, or because some call has claimed to
  close it. -/
  refused : ∀ i c a, p.Returned i c a → c.isWrite = true → a = .error .transactionReadonly ∨
    a = .error .transactionFinished ∧ ∃ j, Claimed tr j

namespace PgTx

/-- Whatever it is answered, the program sends no write. -/
def WritesNothing {α : Type} (d : TxAsync α) : Prop :=
  d.All (fun q _ ↦ q.isWrite = false) fun _ ↦ True

theorem WritesNothing.bind {α β : Type} {d : TxAsync α} {f : α → TxAsync β}
    (h : WritesNothing d) (hf : ∀ a, WritesNothing (f a)) : WritesNothing (d >>= f) :=
  Dialogue.All.bind h fun a _ ↦ hf a

theorem writesNothing_lock : WritesNothing lock := by
  refine ⟨rfl, fun done ↦ ?_⟩
  cases done with
  | true => trivial
  | false =>
    refine ⟨rfl, fun _ ↦ ⟨rfl, fun inner ↦ ?_⟩⟩
    cases inner with
    | none => exact ⟨rfl, fun _ ↦ trivial⟩
    | some tx => trivial

/-- On a read-only `PgTx`, a write looks whether the transaction is closed and does no more. -/
theorem wrap_lockWrite {α : Type} (f : α → CallAnswer)
    (body : PgTransaction → Async (Result α × PgTransaction)) :
    Call.wrap f (withTx (lockWrite false) body) = .ask .loadDone none fun done ↦
      .done (.error (bif done then .transactionFinished else .transactionReadonly)) := by
  refine congrArg (Dialogue.ask TxReq.loadDone none) (funext fun done ↦ ?_)
  cases done <;> rfl

/-- What a program of the inner transaction does not send, it does not send from within a call,
under the guard or owned. -/
theorem writesNothing_embed {α : Type} {p : Request → Option Unwound → Prop} {r : α → Prop}
    {a : Async α} (h : a.All p r) (hp : ∀ q u, p q u → q.isWrite = false)
    (note : Unwound → TxNote) : WritesNothing (a.embed TxReq.tx (fun _ r ↦ r) note) :=
  (h.embed hp).mono (fun _ _ hq ↦ hq) fun _ _ ↦ trivial

theorem writesNothing_of_serves {may : Bool} {d : TxAsync (KvsResult CallAnswer)}
    (h : Serves false may d) : WritesNothing d := by
  cases h with
  | rejected e => trivial
  | reads f body hbody =>
    refine Dialogue.All.map (writesNothing_lock.bind fun r ↦ ?_)
    rcases r with e | tx
    · trivial
    · have hinner : WritesNothing (underGuard (body tx)) :=
        writesNothing_embed (hbody tx) (fun _ _ ↦ Sends.isWrite_eq_false) _
      exact hinner.bind fun r ↦ ⟨rfl, fun _ ↦ ⟨rfl, fun _ ↦ trivial⟩⟩
  | writes f body hbody =>
    rw [wrap_lockWrite]
    exact ⟨rfl, fun _ ↦ trivial⟩

theorem writesNothing_close {inner : PgTransaction → Async (Result Unit × PgTransaction)}
    {settle : Result Unit → TxAsync Unit} (hinner : ∀ tx, WritesNothing (onOwned (inner tx)))
    (hsettle : ∀ r, WritesNothing (settle r)) : WritesNothing (close inner settle) := by
  refine ⟨rfl, fun done ↦ ?_⟩
  cases done with
  | true => trivial
  | false =>
    refine ⟨rfl, fun _ ↦ ⟨rfl, fun done ↦ ?_⟩⟩
    cases done with
    | true => exact ⟨rfl, fun _ ↦ trivial⟩
    | false =>
      refine ⟨rfl, fun txOpt ↦ ⟨rfl, fun _ ↦ ?_⟩⟩
      cases txOpt with
      | none => trivial
      | some tx => exact (hinner tx).bind fun r ↦ (hsettle r.1).bind fun _ ↦ trivial

end PgTx

open PgTx in
/-- **No call of a read-only `PgTx`** sends a write. -/
theorem Call.writesNothing (c : Call) : WritesNothing (c.code false) := by
  cases hc : c.isCloser with
  | false => exact writesNothing_of_serves (c.serves false hc)
  | true =>
    cases c with
    | commit =>
      have hinner (tx : PgTransaction) : WritesNothing (onOwned tx.commit) :=
        writesNothing_embed tx.commit_writes_nothing (fun _ _ hq ↦ hq) _
      refine Dialogue.All.map (writesNothing_close hinner fun r ↦ ?_)
      cases r with
      | ok _ => exact ⟨rfl, fun _ ↦ trivial⟩
      | error e => exact ⟨rfl, fun _ ↦ trivial⟩
    | cancel =>
      have hinner (tx : PgTransaction) : WritesNothing (onOwned tx.cancel) :=
        writesNothing_embed tx.cancel_writes_nothing (fun _ _ hq ↦ hq) _
      exact Dialogue.All.map (writesNothing_close hinner fun r ↦ ⟨rfl, fun _ ↦ trivial⟩)
    | _ => exact absurd hc Bool.false_ne_true

theorem Call.code_of_isWrite {c : Call} (hc : c.isWrite = true) :
    c.code false = .ask .loadDone none fun done ↦
      .done (.error (bif done then .transactionFinished else .transactionReadonly)) := by
  have hcloser : c.isCloser = false := by
    cases c with
    | commit | cancel => exact absurd hc Bool.false_ne_true
    | _ => rfl
  have hserves := c.serves false hcloser
  rw [hc] at hserves
  generalize c.code false = d at hserves
  cases hserves with
  | writes f body hbody => exact PgTx.wrap_lockWrite f body

/-! ## Every interleaving -/

variable {ι : Type}

/-- Where a call of a read-only `PgTx` has got to: it writes nothing from there on, and if it is
there to write, it has not begun or was refused. -/
structure Refusing (tr : List (TxEvent ι)) (c : Call) (d : TxAsync (KvsResult CallAnswer)) :
    Prop where
  writesNothing : PgTx.WritesNothing d
  refused : c.isWrite = true → d = c.code false ∨ d = .done (.error .transactionReadonly) ∨
    d = .done (.error .transactionFinished) ∧ ∃ j, Claimed tr j

theorem Refusing.append {tr : List (TxEvent ι)} {c : Call}
    {d : TxAsync (KvsResult CallAnswer)} (h : Refusing tr c d) (e : TxEvent ι) :
    Refusing (tr ++ [e]) c d := by
  refine ⟨h.writesNothing, fun hc ↦ ?_⟩
  refine (h.refused hc).imp_right (Or.imp_right (And.imp_right fun ⟨j, hj⟩ ↦ ⟨j, ?_⟩))
  exact claimed_append_singleton.mpr (Or.inl hj)

theorem Refusing.answer {tr : List (TxEvent ι)} {m m' : TxMem ι} {i : ι} {c : Call} {q : TxReq}
    {u : Option TxNote} {next : q.Answer → TxAsync (KvsResult CallAnswer)} {r : q.Answer}
    (h : Refusing tr c (.ask q u next)) (hdone : m.done = true → ∃ j, Claimed tr j)
    (hans : (txServer ι).answer i m q r m') : Refusing tr c (next r) := by
  refine ⟨h.writesNothing.2 r, fun hc ↦ Or.inr ?_⟩
  rcases h.refused hc with hcode | hend | ⟨hend, -⟩
  · rw [Call.code_of_isWrite hc] at hcode
    injection hcode with hq hu hnext
    subst hq
    obtain rfl := eq_of_heq hnext
    cases r with
    | false => exact Or.inl rfl
    | true => exact Or.inr ⟨rfl, hdone (hans.1 rfl)⟩
  · injection hend
  · injection hend

theorem refusing_of_run [DecidableEq ι] {conn : TxConn} {tr : List (TxEvent ι)} {p : TxPool ι}
    (hrun : Run (Pool.Step (txServer ι) (Call.code false)) (Pool.start (.opened conn false))
      tr p) :
    (∀ e ∈ tr, e.sends TxReq.isWrite = false) ∧
      ∀ i c d, p.task i = some (.live c d) → Refusing tr c d := by
  induction hrun with
  | nil => exact ⟨List.forall_mem_nil _, fun i c d hi ↦ absurd hi (Option.some_ne_none _).symm⟩
  | @snoc tr p p' e hrun hstep ih =>
    obtain ⟨hsends, hcalls⟩ := ih
    have hcalls' (j : ι) (c : Call) (d) (hj : p.task j = some (.live c d)) :
        Refusing (tr ++ [e]) c d := (hcalls j c d hj).append e
    have hsends' (he : e.sends TxReq.isWrite = false) :
        ∀ e' ∈ tr ++ [e], e'.sends TxReq.isWrite = false :=
      List.forall_mem_append.mpr ⟨hsends, List.forall_mem_singleton.mpr he⟩
    cases hstep with
    | call i c hi =>
      refine ⟨hsends' rfl, Pool.forall_live_advance hcalls' fun c' d hd ↦ ?_⟩
      obtain ⟨rfl, rfl⟩ := Task.live.inj hd
      exact ⟨c.writesNothing, fun _ ↦ Or.inl rfl⟩
    | @answer i c q u next r m' hi hans =>
      -- a call is turned away only after another has claimed the close
      have hdone (hd : p.mem.done = true) : ∃ j, Claimed tr j := by
        obtain ⟨ph, hinv, -⟩ :=
          CloseInv.keeps.run (Call.follows false) (.opened conn false) hrun
        rw [exists_claimed_iff, hinv.told.claims, hd]
        exact Nat.one_pos
      refine ⟨hsends' (hcalls i c _ hi).writesNothing.1,
        Pool.forall_live_advance hcalls' fun c' d hd ↦ ?_⟩
      obtain ⟨rfl, rfl⟩ := Task.live.inj hd
      exact ((hcalls i c _ hi).answer hdone hans).append _
    | @abandon i c q u next m' hi hun =>
      refine ⟨hsends' (hcalls i c _ hi).writesNothing.1,
        Pool.forall_live_advance hcalls' fun c' d hd ↦ ?_⟩
      exact absurd hd (by simp)

theorem TxEvent.isWrite_of_command {e : TxEvent ι} {c : Command Stmt}
    (h : e.command = some c) : e.sends TxReq.isWrite = Request.isWrite (.sql c) := by
  rw [command.eq_def] at h
  split at h
  · obtain rfl := Option.some.inj h
    rfl
  · obtain rfl := Option.some.inj h
    rfl
  · exact absurd h (Option.some_ne_none c).symm

/-- **The calls of a read-only `PgTx`** send no write, whatever is called and dropped. -/
theorem callsReadOnly_of_run [DecidableEq ι] {conn : TxConn} {tr : List (TxEvent ι)}
    {p : TxPool ι}
    (hrun : Run (Pool.Step (txServer ι) (Call.code false)) (Pool.start (.opened conn false))
      tr p) : CallsReadOnly tr p := by
  obtain ⟨hsends, hcalls⟩ := refusing_of_run hrun
  refine ⟨hsends, survives_of_isWrite fun c hc ↦ ?_, fun i c a hi hc ↦ ?_⟩
  · obtain ⟨e, he, hce⟩ := List.mem_filterMap.mp hc
    rw [← TxEvent.isWrite_of_command hce, hsends e he]
  · rcases (hcalls i c _ hi).refused hc with hcode | hend | ⟨hend, hclaim⟩
    · rw [Call.code_of_isWrite hc] at hcode
      injection hcode
    · injection hend with hend
      exact Or.inl hend
    · injection hend with hend
      exact Or.inr ⟨hend, hclaim⟩

/-- **Read-only transactions never write**, used directly or through a `PgTx`. -/
theorem readOnly_never_writes :
    (∀ (conn : TxConn) (tr : List Deed) (v : Value),
      Run Value.Step (.opened false ⟨some conn, false, 0, []⟩) tr v → OwnerReadsOnly tr v) ∧
    ∀ (ι : Type) [DecidableEq ι] (conn : TxConn) (tr : List (TxEvent ι)) (p : TxPool ι),
      Run (Pool.Step (txServer ι) (Call.code false)) (Pool.start (.opened conn false)) tr p →
      CallsReadOnly tr p :=
  ⟨fun _ _ _ ↦ Value.readsOnly_of_run, fun _ _ _ _ _ ↦ callsReadOnly_of_run⟩

/-- A `set` on a read-only `PgTx`, and a `delr` of its transaction. -/
theorem readOnly_set_and_delr :
    (∃ (tr : List (TxEvent Unit)) (p : TxPool Unit), CallsReadOnly tr p ∧
      p.Returned () (.set [1] [2]) (.error .transactionReadonly)) ∧
    ∃ tr tx, OwnerReadsOnly tr ⟨.unpolled tx (.op (.delr [1] [2])), false⟩ := by
  constructor
  · have h : Run (Pool.Step (txServer Unit) (Call.code false))
      (Pool.start (.opened .pooled false)) [] (Pool.start (.opened .pooled false)) := .nil
    have h := h.called () (.set [1] [2]) rfl
    have h := h.answered () .loadDone false _ rfl ⟨fun h ↦ absurd h Bool.false_ne_true, rfl⟩
    exact ⟨_, _, readOnly_never_writes.2 Unit .pooled _ _ h, rfl⟩
  · have h : Run Value.Step (.opened false ⟨some .direct, false, 0, []⟩) []
      (.opened false ⟨some .direct, false, 0, []⟩) := .nil
    have h := h.snoc (.call (.op (.delr [1] [2])))
    exact ⟨_, _, readOnly_never_writes.1 .direct _ _ h⟩

end SurrealPg
