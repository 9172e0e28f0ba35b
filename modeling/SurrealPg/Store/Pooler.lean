import SurrealPg.Store.Active

/-!
# Behind a transaction-mode pooler

A pooler attaches the client's link to a server backend for one transaction block, or for one
message outside a block. A `SET` outside a block changes the backend it ran on, and the next
message may run on another.

`begin_direct` sends its session SQL and its `BEGIN` as two messages. So the backend of a
transaction has the settings asked for exactly if the pooler happened to run a message of session
SQL on that very backend, or if somebody else has left them there.
-/

namespace SurrealPg

open Postgres Semantics

variable {B : Type}

/-! ## The pooler -/

/-- What a client sends over its link. -/
inductive Message
  | setup (sql : RawSql)
  | command (c : Command Stmt)
  deriving DecidableEq

/-- A message, the backend it was run on, the settings it met there, and whether it took effect:
one whose reply was lost may have. -/
structure Sent (B : Type) where
  message : Message
  backend : B
  settings : String → Guc
  effective : Bool

/-- The backends as far as they concern one client, with all it has sent. -/
structure Link (B : Type) where
  settings : B → String → Guc
  /-- The backend of the open block. -/
  attached : Option B
  sent : List (Sent B)

/-- `SET .. = ..; SET .. = ..` -/
def assign (settings : String → Guc) (assignments : List (String × Guc)) : String → Guc :=
  assignments.foldl (fun settings a ↦ Function.update settings a.1 a.2.stored) settings

namespace Link

/-- A client that has sent nothing. -/
def new (settings : B → String → Guc) : Link B := ⟨settings, none, []⟩

variable [DecidableEq B]

/-- A message takes effect on backend `b`. -/
def execute (l : Link B) (b : B) : Message → Link B
  | .setup (.keepalive assignments) | .setup (.session assignments) =>
    { l with settings := Function.update l.settings b (assign (l.settings b) assignments) }
  | .setup (.begin _) => { l with attached := some b }
  | .setup .rollback | .command .commit | .command .rollback => { l with attached := none }
  | .command (.run _) => l

/-- A message is run on the backend of the open block, or, outside a block, on the backend `pick`
the pooler picks. -/
def send (l : Link B) (m : Message) (pick : B) (effective : Bool) : Link B :=
  let b := l.attached.getD pick
  let l' := { l with sent := l.sent ++ [⟨m, b, l.settings b, effective⟩] }
  if effective then l'.execute b m else l'

end Link

/-- Everything that is not up to the client: the answers, the backends picked, and whether a message
that was not answered with success has taken effect all the same. -/
structure Weather (B : Type) where
  answer : ℕ → (q : StoreReq) → q.Answer
  pick : ℕ → B
  effective : ℕ → Bool

variable [DecidableEq B]

/-- The `n`-th request of a `begin`. A new connection is not in a block. -/
def Weather.serve (w : Weather B) (x : Link B × ℕ) (q : StoreReq) : q.Answer × Link B × ℕ :=
  (w.answer x.2 q,
    match q with
    | .execute sql =>
      x.1.send (.setup sql) (w.pick x.2) ((w.answer x.2 (.execute sql)).isOk || w.effective x.2)
    | .executeTimed sql =>
      x.1.send (.setup sql) (w.pick x.2)
        ((w.answer x.2 (.executeTimed sql)).elim false Except.isOk || w.effective x.2)
    | .connect => { x.1 with attached := none }
    | _ => x.1,
    x.2 + 1)

/-! ## The transaction that was begun -/

/-- A transaction is used over its link. Whether a `COMMIT` or `ROLLBACK` took effect is open. -/
inductive UseStep : Value × Link B → Deed → Value × Link B → Prop
  | still {v v' : Value} {e : Deed} {l : Link B} : Value.Step v e v' → e.command = none →
    UseStep (v, l) e (v', l)
  | send {v v' : Value} {e : Deed} {l : Link B} {c : Command Stmt} (pick : B) (effective : Bool) :
    Value.Step v e v' → e.command = some c →
    UseStep (v, l) e (v', l.send (.command c) pick effective)

/-! ## The settings asked for -/

/-- The settings a transaction relies on. -/
def timeouts : List String :=
  ["statement_timeout", "idle_in_transaction_session_timeout", "lock_timeout"]

/-- What the server is to store for a setting of the session SQL. -/
def PgTuneConfig.asked (t : PgTuneConfig) (name : String) : Option Guc :=
  (t.sessionSettings.lookup name).map Guc.stored

/-- All three timeouts are the ones asked for. -/
def PgTuneConfig.Honoured (t : PgTuneConfig) (settings : String → Guc) : Prop :=
  ∀ name ∈ timeouts, some (settings name) = t.asked name

/-- Session SQL of the store took effect on backend `b`. -/
def Link.Prepared (s : PgStore) (l : Link B) (b : B) : Prop :=
  ∃ x ∈ l.sent, x.message = .setup s.sessionSql ∧ x.backend = b ∧ x.effective = true

/-- However the transaction `tx` is used over the link `l`, each of its statements runs under the
timeouts asked for. -/
def StatementsHonoured (t : PgTuneConfig) (write : Bool) (tx : PgTransaction) (l : Link B) : Prop :=
  ∀ (es : List Deed) (v : Value) (l' : Link B),
    Run UseStep (Value.opened write tx, l) es (v, l') →
      ∀ x ∈ l'.sent, ∀ c, x.message = .command c → t.Honoured x.settings

/-- The law: every statement of a transaction that `begin_direct` returns runs under the timeouts
asked for. -/
def SessionSettingsApply (B : Type) [DecidableEq B] (s : PgStore) : Prop :=
  ∀ (w : Weather B) (settings : B → String → Guc) (write : Bool) (tx : PgTransaction) (l : Link B)
    (n : ℕ), (s.beginDirect write).eval w.serve (.new settings, 0) = (.ok tx, l, n) →
      StatementsHonoured s.tune write tx l

section Settings

variable {s : PgStore} {t : PgTuneConfig} {settings : String → Guc} {l : Link B} {m : Message}
  {b pick : B} {effective : Bool}

omit [DecidableEq B] in
theorem honoured_session : t.Honoured (assign settings t.sessionSettings) := by
  intro name hname
  simp only [timeouts, List.mem_cons, List.not_mem_nil, or_false] at hname
  obtain rfl | rfl | rfl := hname <;> rfl

theorem assign_keepalive : ∃ assignments, t.keepaliveSql = .keepalive assignments ∧
    ∀ settings, ∀ name ∈ timeouts, assign settings assignments name = settings name := by
  refine ⟨_, rfl, fun settings name hname ↦ ?_⟩
  simp only [timeouts, List.mem_cons, List.not_mem_nil, or_false] at hname
  obtain rfl | rfl | rfl := hname <;> rfl

theorem Link.execute_sent : (l.execute b m).sent = l.sent := by
  rcases m with (_ | _ | _ | _) | (_ | _ | _) <;> rfl

theorem Link.send_sent : (l.send m pick effective).sent =
    l.sent ++ [⟨m, l.attached.getD pick, l.settings (l.attached.getD pick), effective⟩] := by
  cases effective with
  | false => rfl
  | true => exact execute_sent

theorem Link.prepared_send : (l.send m pick effective).Prepared s b ↔
    l.Prepared s b ∨
      m = .setup s.sessionSql ∧ l.attached.getD pick = b ∧ effective = true := by
  simp only [Prepared, send_sent, List.mem_append, List.mem_singleton, or_and_right, exists_or,
    exists_eq_left]

theorem Link.send_settings : (l.send m pick effective).settings =
    if effective then (l.execute (l.attached.getD pick) m).settings else l.settings := by
  cases effective with
  | false => rfl
  | true => rcases m with (_ | _ | _ | _) | (_ | _ | _) <;> rfl

/-- Of what `begin_direct` sends, only the session SQL decides about the timeouts. -/
theorem Link.honoured_send {sql : RawSql} (hsql : sql = s.beginSql ∨ sql = .rollback ∨
      sql = s.keepaliveSql ∨ sql = s.sessionSql) :
    s.tune.Honoured ((l.send (.setup sql) pick effective).settings b) ↔
      s.tune.Honoured (l.settings b) ∨ Message.setup sql = .setup s.sessionSql ∧
        l.attached.getD pick = b ∧ effective = true := by
  rw [send_settings, s.sessionSql_eq]
  cases effective with
  | false => simp
  | true =>
    rw [if_pos rfl]
    obtain rfl | rfl | rfl | rfl := hsql
    · simp [execute, PgStore.beginSql]
    · simp [execute]
    · obtain ⟨assignments, heq, happly⟩ := assign_keepalive (t := s.tune)
      rw [PgStore.keepaliveSql, heq]
      by_cases hb : l.attached.getD pick = b
      · subst hb
        have hsame : s.tune.Honoured (assign (l.settings (l.attached.getD pick)) assignments) ↔
            s.tune.Honoured (l.settings (l.attached.getD pick)) :=
          forall₂_congr fun name hname ↦ by rw [happly _ name hname]
        simp [execute, hsame]
      · simp [execute, hb, Function.update_of_ne (Ne.symm hb)]
    · rw [s.sessionSql_eq]
      by_cases hb : l.attached.getD pick = b
      · subst hb
        simp [execute, honoured_session]
      · simp [execute, hb, Function.update_of_ne (Ne.symm hb)]

end Settings

/-! ## How `begin_direct` leaves the backends -/

/-- What is known of the link in a phase of `begin_direct`. -/
structure Reached (s : PgStore) (settings : B → String → Guc) (φ : BeginPhase) (l : Link B) :
    Prop where
  /-- Nothing of a transaction has been sent yet. -/
  setup : ∀ x ∈ l.sent, ∃ sql, x.message = .setup sql
  /-- A backend has the timeouts if it was given them or had them. -/
  honoured : ∀ b, s.tune.Honoured (l.settings b) ↔
    l.Prepared s b ∨ s.tune.Honoured (settings b)
  attached : φ = .begun ∨ φ = .started ∨ φ = .counted → l.attached.isSome = true

section Begin

variable {s : PgStore} {settings : B → String → Guc} {φ φ' : BeginPhase} {l : Link B}
  {sql : RawSql} {pick : B} {effective : Bool}

theorem Reached.send (h : Reached s settings φ l)
    (hsql : sql = s.beginSql ∨ sql = .rollback ∨ sql = s.keepaliveSql ∨ sql = s.sessionSql)
    (hφ' : φ' = .begun ∨ φ' = .started ∨ φ' = .counted →
      (l.send (.setup sql) pick effective).attached.isSome = true) :
    Reached s settings φ' (l.send (.setup sql) pick effective) where
  setup x hx := by
    rw [Link.send_sent, List.mem_append, List.mem_singleton] at hx
    obtain hx | rfl := hx
    · exact h.setup x hx
    · exact ⟨sql, rfl⟩
  honoured b := by
    rw [Link.honoured_send hsql, h.honoured b, Link.prepared_send, or_right_comm]
  attached := hφ'

omit [DecidableEq B] in
theorem Reached.still (h : Reached s settings φ l)
    (hφ' : ¬(φ' = .begun ∨ φ' = .started ∨ φ' = .counted)) : Reached s settings φ' l :=
  ⟨h.setup, h.honoured, fun hφ ↦ absurd hφ hφ'⟩

/-- **Every request of `begin_direct`** keeps what is known of the backends. -/
theorem Reached.serve {mode : ConnectionMode} {q : StoreReq} {u : Option StoreNote}
    {x : Link B × ℕ} (w : Weather B) (h : Reached s settings φ x.1)
    (hmay : BeginPhase.May mode φ q u) (hsends : s.Sends q u) :
    ∃ φ', φ.next q (w.serve x q).1 = some φ' ∧ Reached s settings φ' (w.serve x q).2.1 := by
  cases hmay with
  | look hφ =>
    refine ⟨bif w.answer x.2 .loadShuttingDown then .outside else .admitted, ?_, h.still ?_⟩
    · obtain rfl | rfl := hφ <;> rfl
    · cases w.answer x.2 .loadShuttingDown <;> decide
  | poolSize | loadActive | sleep | returnConn => exact ⟨.outside, rfl, h.still (by decide)⟩
  | acquire =>
    refine ⟨_, rfl, h.still ?_⟩
    split_ifs <;> decide
  | connect =>
    refine ⟨_, rfl, h.setup, h.honoured, fun hφ ↦ absurd hφ ?_⟩
    split_ifs <;> decide
  | keepalive l =>
    have hsends : _ ∨ _ := hsends
    refine ⟨.connected, rfl, h.send (by tauto) fun hφ ↦ absurd hφ (by decide)⟩
  | session l =>
    have hsends : _ ∨ _ := hsends
    refine ⟨_, rfl, h.send (by tauto) fun hφ ↦ absurd hφ ?_⟩
    split_ifs <;> decide
  | rollback => exact ⟨.outside, rfl, h.send (Or.inr (Or.inl rfl)) fun hφ ↦ absurd hφ (by decide)⟩
  | begin level =>
    have hsends : _ ∨ _ := hsends
    refine ⟨_, rfl, h.send (by tauto) fun hφ ↦ ?_⟩
    cases hr : (w.answer x.2 (.execute (.begin level))).isOk with
    | true => rfl
    | false =>
      have hr' : (w.serve x (.execute (.begin level))).1.isOk = false := hr
      rw [hr'] at hφ
      exact absurd hφ (by decide)
  | countStarted => exact ⟨.started, rfl, h.setup, h.honoured, fun _ ↦ h.attached (Or.inl rfl)⟩
  | countActive =>
    exact ⟨.counted, rfl, h.setup, h.honoured, fun _ ↦ h.attached (Or.inr (Or.inl rfl))⟩

theorem reached_of_begin {w : Weather B} {write : Bool} {tx : PgTransaction} {n : ℕ}
    (h : (s.beginDirect write).eval w.serve (.new settings, 0) = (.ok tx, l, n)) :
    (∃ conn, tx = ⟨some conn, write, 0, []⟩) ∧ Reached s settings .counted l := by
  obtain ⟨φ, hends, hreached⟩ := Dialogue.Follows.eval_invariant
    (J := fun φ x ↦ Reached s settings φ x.1)
    (PgStore.beginDirectFrom_begins PgStore.MAX_RETRIES (Or.inl rfl))
    (PgStore.beginDirectFrom_sends PgStore.MAX_RETRIES)
    (fun φ x q u hmay hsends hx ↦ hx.serve w hmay hsends)
    (s := (.new settings, 0)) ⟨nofun, fun b ↦ ⟨Or.inr, fun h ↦ h.resolve_left nofun⟩, nofun⟩
  rw [PgStore.beginDirect] at h
  rw [h] at hends hreached
  cases φ with
  | counted =>
    obtain ⟨conn, htx⟩ := hends
    exact ⟨⟨conn, Except.ok.inj htx⟩, hreached⟩
  | outside | admitted => exact nomatch hends.choose_spec
  | connected | failed | begun | started => exact hends.elim

end Begin

/-! ## The statements of the transaction -/

/-- What a method asks for, by whether the block is open on the link. A future that is dropped
leaves a transaction that has its connection only if the block is open. -/
inductive OnBlock : Bool → Request → Option Unwound → Prop
  | run (c : Statement Stmt) (left : Unwound) : OnBlock true (.sql (.run c)) (some left)
  | commit (left : Unwound) : left.self.conn = none → OnBlock true (.sql .commit) (some left)
  | rollback (left : Unwound) : left.self.conn = none → OnBlock true (.sql .rollback) (some left)
  | release (opened : Bool) : OnBlock opened .releaseActive none

/-- Whether the block is open after a request. -/
def afterRequest (opened : Bool) : (q : Request) → q.Answer → Option Bool
  | .sql (.run _), _ | .releaseActive, _ => some opened
  | .sql .commit, _ | .sql .rollback, _ => some false

/-- A transaction that has its connection has an open block. -/
abbrev BlockOpen (opened : Bool) (d : Async (Result Answer × PgTransaction)) : Prop :=
  d.Follows OnBlock afterRequest (fun opened r ↦ r.2.conn.isSome = true → opened = true) opened

namespace Method

theorem onBlock_of_quiet {conn : Option TxConn} {d : Async (Result Answer × PgTransaction)}
    (h : d.All (Quiet conn) fun r ↦ r.2.conn = conn) : BlockOpen conn.isSome d := by
  induction d with
  | done r =>
    intro hr
    rwa [← (h : r.2.conn = conn)]
  | ask q u next ih =>
    obtain ⟨⟨c, left, hconn, -, -⟩, hnext⟩ := h
    refine ⟨hconn ▸ .run c left, fun r opened hopened ↦ ?_⟩
    obtain rfl := Option.some.inj hopened
    exact ih r (hnext r)

theorem close_onBlock {inner : PgTransaction → TxConn → Async (Result Unit)} {c : Command Stmt}
    (hc : c = .commit ∨ c = .rollback) (hinner : PgTransaction.EndsBy c inner)
    (tx : PgTransaction) :
    (tx.close inner).Follows OnBlock afterRequest
      (fun opened r ↦ r.2.conn.isSome = true → opened = true) tx.conn.isSome := by
  cases hconn : tx.conn with
  | none =>
    rw [PgTransaction.close_of_none hconn]
    intro h
    rw [hconn] at h
    exact absurd h Bool.false_ne_true
  | some conn =>
    rw [hinner.close_eq hconn]
    refine ⟨?_, fun r opened hopened ↦ ?_⟩
    · obtain rfl | rfl := hc
      · exact .commit _ rfl
      · exact .rollback _ rfl
    · obtain rfl : false = opened := by
        obtain rfl | rfl := hc <;> exact Option.some.inj hopened
      -- The connection is gone, and all that is left is to let the guard go.
      rcases r with e | p <;> exact ⟨.release false, fun _ _ _ h ↦ absurd h Bool.false_ne_true⟩

theorem run_onBlock (m : Method) (tx : PgTransaction) : BlockOpen tx.conn.isSome (m.run tx) := by
  cases m with
  | op o => exact onBlock_of_quiet (Op.run_quiet tx o)
  | commit =>
    exact Dialogue.Follows.map
      (close_onBlock (Or.inl rfl) PgTransaction.endsBy_commitInner tx)
  | cancel =>
    exact Dialogue.Follows.map
      (close_onBlock (Or.inr rfl) PgTransaction.endsBy_cancelInner tx)

end Method

/-- The block is open on backend `b` as long as the transaction may send anything. -/
def OnBackend (b : B) (v : Value) (l : Link B) : Prop :=
  match v.use with
  | .idle tx | .unpolled tx _ => tx.conn.isSome = true → l.attached = some b
  | .running _ d => ∃ opened, BlockOpen opened d ∧ (opened = true → l.attached = some b)
  | .dropped => True

section Use

variable {b : B} {v v' : Value} {e : Deed} {l l' : Link B}

omit [DecidableEq B] in
theorem OnBackend.still (h : OnBackend b v l) (hstep : Value.Step v e v')
    (he : e.command = none) : OnBackend b v' l := by
  cases hstep with
  | call m => exact h
  | forget => exact h
  | @poll tx m => exact ⟨_, m.run_onBlock tx, h⟩
  | answer r =>
    obtain ⟨opened, ⟨hmay, hnext⟩, hb⟩ := h
    cases hmay with
    | release => exact ⟨opened, hnext r _ rfl, hb⟩
    | _ => exact nomatch he
  | «return» =>
    obtain ⟨opened, hend, hb⟩ := h
    exact fun hconn ↦ hb (hend hconn)
  | abandon =>
    obtain ⟨opened, ⟨hmay, -⟩, -⟩ := h
    cases hmay <;> exact nomatch he
  | drop => exact trivial

/-- **A statement is run on the backend of the block**, which stays attached until the transaction
can send nothing any more. -/
theorem OnBackend.send (h : OnBackend b v l) (hstep : Value.Step v e v') {c : Command Stmt}
    (he : e.command = some c) (pick : B) (effective : Bool) :
    l.attached = some b ∧ OnBackend b v' (l.send (.command c) pick effective) := by
  cases hstep with
  | @answer m q u closed next r =>
    obtain ⟨opened, ⟨hmay, hnext⟩, hb⟩ := h
    cases hmay with
    | run c left =>
      obtain rfl := Option.some.inj he
      refine ⟨hb rfl, true, hnext r _ rfl, fun _ ↦ ?_⟩
      cases effective <;> exact hb rfl
    | commit => exact ⟨hb rfl, false, hnext r _ rfl, nofun⟩
    | rollback => exact ⟨hb rfl, false, hnext r _ rfl, nofun⟩
    | release => exact nomatch he
  | abandon =>
    obtain ⟨opened, ⟨hmay, -⟩, hb⟩ := h
    cases hmay with
    | run c left =>
      obtain rfl := Option.some.inj he
      refine ⟨hb rfl, fun _ ↦ ?_⟩
      cases effective <;> exact hb rfl
    | commit left hconn => exact ⟨hb rfl, fun hsome ↦ nomatch hsome.symm.trans (congrArg _ hconn)⟩
    | rollback left hconn => exact ⟨hb rfl, fun hsome ↦ nomatch hsome.symm.trans (congrArg _ hconn)⟩
  | call | forget | poll | «return» | drop => exact nomatch he

theorem Link.send_command_settings {c : Command Stmt} {pick : B} {effective : Bool} :
    (l.send (.command c) pick effective).settings = l.settings := by
  rw [send_settings]
  rcases c with _ | _ | _ <;> exact ite_self _

/-- **All statements of a transaction** run on one backend, whose settings stay what they are. -/
theorem statements_of_run {write : Bool} {conn : TxConn} {es : List Deed}
    (hb : l.attached = some b) (hsetup : ∀ x ∈ l.sent, ∃ sql, x.message = .setup sql)
    (h : Run UseStep (Value.opened write ⟨some conn, write, 0, []⟩, l) es (v, l')) :
    ∀ x ∈ l'.sent, ∀ c, x.message = .command c → x.backend = b ∧ x.settings = l.settings b := by
  have hstart : ∀ y ∈ l.sent, ∀ c, y.message = .command c →
      y.backend = b ∧ y.settings = l.settings b := by
    intro y hy c hc
    obtain ⟨sql, hsql⟩ := hsetup y hy
    exact nomatch hsql.symm.trans hc
  have hon : OnBackend b (Value.opened write ⟨some conn, write, 0, []⟩) l := fun _ ↦ hb
  have hinv : OnBackend b v l' ∧ l'.settings = l.settings ∧ ∀ y ∈ l'.sent, ∀ c,
      y.message = .command c → y.backend = b ∧ y.settings = l.settings b := by
    refine h.invariant (I := fun _ x ↦ OnBackend b x.1 x.2 ∧ x.2.settings = l.settings ∧
      ∀ y ∈ x.2.sent, ∀ c, y.message = .command c → y.backend = b ∧ y.settings = l.settings b)
      ⟨hon, rfl, hstart⟩ ?_
    rintro es ⟨v, m⟩ e ⟨v', m'⟩ ⟨hon, hsettings, hsent⟩ hstep
    cases hstep with
    | still hstep he => exact ⟨hon.still hstep he, hsettings, hsent⟩
    | send pick effective hstep he =>
      obtain ⟨hatt, hon'⟩ := hon.send hstep he pick effective
      refine ⟨hon', Link.send_command_settings.trans hsettings, fun y hy c hc ↦ ?_⟩
      change y ∈ (m.send _ pick effective).sent at hy
      rw [Link.send_sent, List.mem_append, List.mem_singleton] at hy
      obtain hy | rfl := hy
      · exact hsent y hy c hc
      · have hatt : m.attached = some b := hatt
        have hsettings : m.settings = l.settings := hsettings
        rw [hatt, Option.getD_some, hsettings]
        exact ⟨rfl, rfl⟩
  exact hinv.2.2

theorem statementsHonoured_iff {t : PgTuneConfig} {write : Bool} {conn : TxConn}
    (hb : l.attached = some b) (hsetup : ∀ x ∈ l.sent, ∃ sql, x.message = .setup sql) :
    StatementsHonoured t write ⟨some conn, write, 0, []⟩ l ↔ t.Honoured (l.settings b) := by
  constructor
  · intro hall
    -- Any statement tells, such as the one of `exists`.
    have hrun : Run UseStep (Value.opened write ⟨some conn, write, 0, []⟩, l) [] _ := .nil
    have hrun := hrun.snoc (.still (.call (.op (.exists []))) rfl)
    have hrun := hrun.snoc (.still .poll rfl)
    have hrun := hrun.snoc (.send b false (.answer (q := .sql _) (.ok ⟨[], 0⟩)) rfl)
    have hlast := hall _ _ _ hrun ⟨.command (.run (.data (.existsFlag []))), l.attached.getD b,
      l.settings (l.attached.getD b), false⟩ (List.mem_append_right _ (List.mem_singleton.mpr rfl))
    rw [hb] at hlast
    exact hlast _ rfl
  · intro hsettings es v l' hrun x hx c hc
    obtain ⟨-, heq⟩ := statements_of_run hb hsetup hrun x hx c hc
    rwa [heq]

end Use

/-! ## When the settings apply -/

/-- **The timeouts apply** to a transaction of `begin_direct` exactly if the backend on which the
pooler ran `BEGIN` is one on which it also ran session SQL of this call with effect, or one that had
them anyway. -/
theorem sessionSettingsApply_iff {w : Weather B} {s : PgStore} {settings : B → String → Guc}
    {write : Bool} {tx : PgTransaction} {l : Link B} {n : ℕ}
    (h : (s.beginDirect write).eval w.serve (.new settings, 0) = (.ok tx, l, n)) :
    StatementsHonoured s.tune write tx l ↔
      ∃ b, l.attached = some b ∧ (l.Prepared s b ∨ s.tune.Honoured (settings b)) := by
  obtain ⟨⟨conn, rfl⟩, hreached⟩ := reached_of_begin h
  obtain ⟨b, hb⟩ := Option.isSome_iff_exists.mp (hreached.attached (Or.inr (Or.inr rfl)))
  rw [statementsHonoured_iff hb hreached.setup, hreached.honoured b, hb]
  exact ⟨fun hcond ↦ ⟨b, rfl, hcond⟩, fun ⟨b', hb', hcond⟩ ↦ Option.some.inj hb' ▸ hcond⟩

/-- Every request is granted. -/
def granted : (q : StoreReq) → q.Answer
  | .loadShuttingDown | .takeHeartbeat | .awaitPool | .deadlinePassed => false
  | .acquire | .execute _ => .ok ()
  | .connect | .executeTimed _ => some (.ok ())
  | .poolSize => (0, 0)
  | .loadActive => 0
  | .returnConn | .sleep _ | .addStarted | .addActive | .storeShuttingDown | .cancelHeartbeat
  | .joinHeartbeat | .closePool => ()

/-- A `begin_direct` without trouble: the session SQL is the request numbered 3, `BEGIN` the one
numbered 4. -/
theorem beginDirect_granted (pick : ℕ → B) (settings : B → String → Guc) :
    ∃ l n, ((PgStore.withDefaults .direct).beginDirect true).eval
        (Weather.serve ⟨fun _ ↦ granted, pick, fun _ ↦ true⟩) (.new settings, 0) =
          (.ok (.newDirect true), l, n) ∧
      l.attached = some (pick 4) ∧ ∀ b, l.Prepared (.withDefaults .direct) b ↔ pick 3 = b := by
  have h : ∃ settings₁ settings₂ settings₃ l n,
      ((PgStore.withDefaults .direct).beginDirect true).eval
        (Weather.serve ⟨fun _ ↦ granted, pick, fun _ ↦ true⟩) (.new settings, 0) =
          (.ok (.newDirect true), l, n) ∧ l.attached = some (pick 4) ∧ l.sent =
        [⟨.setup (PgStore.withDefaults .direct).keepaliveSql, pick 2, settings₁, true⟩,
          ⟨.setup (PgStore.withDefaults .direct).sessionSql, pick 3, settings₂, true⟩,
          ⟨.setup (PgStore.withDefaults .direct).beginSql, pick 4, settings₃, true⟩] :=
    ⟨_, _, _, _, _, rfl, rfl, rfl⟩
  obtain ⟨_, _, _, l, n, heval, hatt, hsent⟩ := h
  refine ⟨l, n, heval, hatt, fun b ↦ ?_⟩
  rw [Link.Prepared, hsent]
  simp [PgStore.keepaliveSql, PgStore.beginSql, PgStore.withDefaults, PgTuneConfig.keepaliveSql]

/-- Of two backends, the keepalive SQL is run on one, and the session SQL and `BEGIN` on the
other. -/
theorem sessionSettingsApply_sameBackend : ∃ (tx : PgTransaction) (l : Link Bool),
    l.attached = some true ∧ l.Prepared (.withDefaults .direct) true ∧
      ¬l.Prepared (.withDefaults .direct) false ∧
      (StatementsHonoured (PgStore.withDefaults .direct).tune true tx l ↔
        ∃ b, l.attached = some b ∧ (l.Prepared (.withDefaults .direct) b ∨
          (PgStore.withDefaults .direct).tune.Honoured fun _ ↦ .millis 0)) := by
  obtain ⟨l, n, h, hatt, hprepared⟩ :=
    beginDirect_granted (fun n ↦ decide (3 ≤ n)) fun _ _ ↦ .millis 0
  refine ⟨_, l, hatt, (hprepared true).mpr rfl, fun hfalse ↦ ?_, sessionSettingsApply_iff h⟩
  exact nomatch (hprepared false).mp hfalse

/-- The session SQL is run on one backend and `BEGIN` on another, which somebody has left without
timeouts. -/
theorem not_sessionSettingsApply : ¬SessionSettingsApply Bool (.withDefaults .direct) := by
  intro hlaw
  obtain ⟨l, n, h, hatt, hprepared⟩ :=
    beginDirect_granted (fun n ↦ decide (n = 4)) fun _ _ ↦ .millis 0
  obtain ⟨-, hreached⟩ := reached_of_begin h
  have hsettings := (statementsHonoured_iff hatt hreached.setup).mp (hlaw _ _ _ _ _ _ h)
  obtain hcond | hcond := (hreached.honoured _).mp hsettings
  · exact nomatch (hprepared true).mp hcond
  · exact nomatch hcond "statement_timeout" (List.mem_cons_self ..)

end SurrealPg
