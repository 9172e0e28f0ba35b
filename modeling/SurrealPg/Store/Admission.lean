import SurrealPg.Store.Begin

/-!
# The protocol of `begin`

The phases of a `begin` call. It looks at the shutdown flag, gets a connection, sets it up, sends
`BEGIN`, raises the two counters and returns the transaction. Any failure takes it back outside,
where it pauses, looks at the flag again, or returns an error. Both connection modes follow the
same phases, so what is proved from the phases holds of both.
-/

namespace SurrealPg

open Semantics

/-- Where a `begin` call is. -/
inductive BeginPhase
  /-- Without a connection, and not past a look at the flag. -/
  | outside
  /-- Has seen the flag down. -/
  | admitted
  /-- Has a connection, on which `BEGIN` is not answered yet. -/
  | connected
  /-- Has a connection on which `BEGIN` was refused. -/
  | failed
  /-- `BEGIN` has succeeded. -/
  | begun
  /-- The transaction is counted as started. -/
  | started
  /-- The transaction is counted as active. -/
  | counted
  deriving DecidableEq

/-- The connection that dies with a call that is setting one up. -/
def ConnectionMode.held : ConnectionMode → StoreNote
  | pooled => .pooled
  | direct => .direct

namespace BeginPhase

/-- What a call may ask for in a phase, and the connection dropped if it is abandoned there. -/
inductive May (mode : ConnectionMode) : BeginPhase → StoreReq → Option StoreNote → Prop
  | look {φ : BeginPhase} : φ = outside ∨ φ = admitted → May mode φ .loadShuttingDown none
  | poolSize : May mode outside .poolSize none
  | loadActive : May mode outside .loadActive none
  | sleep (ms : ℕ) (held : StoreNote) : held ≠ .pooled →
    May mode outside (.sleep ms) (some held)
  | acquire : mode = .pooled → May mode admitted .acquire (some .unconnected)
  | connect : mode = .direct → May mode admitted .connect (some .unconnected)
  | keepalive (l : List (String × Guc)) : mode = .direct →
    May mode connected (.executeTimed (.keepalive l)) (some .direct)
  | session (l : List (String × Guc)) : mode = .direct →
    May mode connected (.executeTimed (.session l)) (some .direct)
  | begin (level : String) : May mode connected (.execute (.begin level)) (some mode.held)
  | rollback : mode = .direct → May mode failed (.execute .rollback) (some .direct)
  | returnConn : mode = .pooled → May mode failed .returnConn none
  | countStarted : May mode begun .addStarted none
  | countActive : May mode started .addActive none

/-- The phase an answer leads to. -/
def next : BeginPhase → (q : StoreReq) → q.Answer → Option BeginPhase
  | outside, .loadShuttingDown | admitted, .loadShuttingDown => fun down ↦
    some (bif down then outside else admitted)
  | admitted, .acquire => fun r ↦ some (if r.isOk then connected else outside)
  | admitted, .connect => fun r ↦ some (if r.elim false Except.isOk then connected else outside)
  | connected, .executeTimed (.keepalive _) => fun _ ↦ some connected
  | connected, .executeTimed (.session _) => fun r ↦
    some (if r.elim false Except.isOk then connected else outside)
  | connected, .execute (.begin _) => fun r ↦ some (if r.isOk then begun else failed)
  | begun, .addStarted => fun _ ↦ some started
  | started, .addActive => fun _ ↦ some counted
  | _, _ => fun _ ↦ some outside

/-- What a `begin(write)` may return in a phase. -/
def Ends (write : Bool) : BeginPhase → Result PgTransaction → Prop
  | counted, a => ∃ conn, a = .ok ⟨some conn, write, 0, []⟩
  | outside, a | admitted, a => ∃ e, a = .error e
  | _, _ => False

end BeginPhase

namespace PgStore

open BeginPhase

/-- A `begin(write)` that is in phase `φ` follows the protocol from there. -/
abbrev Begins (mode : ConnectionMode) (write : Bool) (φ : BeginPhase)
    (d : StoreAsync (Result PgTransaction)) : Prop :=
  d.Follows (May mode) next (Ends write) φ

variable {mode : ConnectionMode} {write : Bool} {s : PgStore}

theorem sessionSql_eq (s : PgStore) : s.sessionSql = .session s.tune.sessionSettings := by
  have h := s.session_eq
  rw [PgTuneConfig.sessionSql] at h
  split_ifs at h
  exact (Option.some.inj h).symm

theorem retry_begins {worth : Bool} {ms : ℕ} {held : StoreNote} {e : PgStoreError}
    {again : Option (StoreAsync (Result PgTransaction))} (hheld : held ≠ .pooled)
    (hagain : ∀ d ∈ again, Begins mode write outside d) :
    Begins mode write outside (retry worth ms held e again) := by
  cases again with
  | none => exact ⟨e, rfl⟩
  | some d =>
    rw [retry]
    split_ifs
    · refine ⟨.sleep ms held hheld, fun _ φ hφ ↦ ?_⟩
      obtain rfl := Option.some.inj hφ
      exact hagain d rfl
    · exact ⟨e, rfl⟩

theorem started_begins (conn : TxConn) :
    Begins mode write begun (started ⟨some conn, write, 0, []⟩) := by
  refine ⟨.countStarted, fun _ φ hφ ↦ ?_⟩
  obtain rfl := Option.some.inj hφ
  refine ⟨.countActive, fun _ φ hφ ↦ ?_⟩
  obtain rfl := Option.some.inj hφ
  exact ⟨conn, rfl⟩

theorem look_begins {φ : BeginPhase} {d : StoreAsync (Result PgTransaction)}
    (hφ : φ = outside ∨ φ = admitted) (hd : Begins mode write admitted d) :
    Begins mode write φ (loadShuttingDown >>= fun down ↦
      if down then return .error (.other SHUTTING_DOWN_MSG) else d) := by
  refine ⟨.look hφ, fun down φ' hφ' ↦ ?_⟩
  have hnext : next φ .loadShuttingDown down = some (bif down then outside else admitted) := by
    obtain rfl | rfl := hφ <;> rfl
  rw [hnext] at hφ'
  cases down with
  | true =>
    obtain rfl : outside = φ' := Option.some.inj hφ'
    exact ⟨_, rfl⟩
  | false =>
    obtain rfl : admitted = φ' := Option.some.inj hφ'
    exact hd

theorem beginWith_follows (s : PgStore) : s.beginWith.Follows (May .pooled) next
    (fun φ r ↦ φ = if r.isOk then begun else outside) admitted := by
  refine ⟨.acquire rfl, fun r φ hφ ↦ ?_⟩
  obtain rfl := Option.some.inj hφ
  rcases r with e | u
  · rfl
  · refine ⟨.begin _, fun r φ hφ ↦ ?_⟩
    obtain rfl := Option.some.inj hφ
    rcases r with e | u
    · refine ⟨.returnConn rfl, fun _ φ hφ ↦ ?_⟩
      obtain rfl := Option.some.inj hφ
      rfl
    · rfl

theorem pooledAttempt_begins {φ : BeginPhase} {attempt : ℕ} {zombie : Bool}
    {again : Bool → Option (StoreAsync (Result PgTransaction))}
    (hφ : φ = outside ∨ φ = admitted)
    (hagain : ∀ z, ∀ d ∈ again z, Begins .pooled write outside d) :
    Begins .pooled write φ (s.pooledAttempt write attempt zombie again) := by
  refine look_begins hφ ?_
  refine Dialogue.Follows.bind (beginWith_follows s) ?_
  rintro φ r rfl
  rcases r with e | u
  · -- The two loads are for the diagnosis of a zombie pool.
    refine ⟨.poolSize, fun size φ hφ ↦ ?_⟩
    obtain rfl := Option.some.inj hφ
    refine ⟨.loadActive, fun active φ hφ ↦ ?_⟩
    obtain rfl := Option.some.inj hφ
    exact retry_begins nofun (hagain _)
  · exact started_begins .pooled

theorem beginPooledFrom_begins (left : ℕ) : ∀ {φ : BeginPhase} (_ : φ = outside ∨ φ = admitted)
    (zombie : Bool), Begins .pooled write φ (s.beginPooledFrom write left zombie) := by
  induction left with
  | zero => exact fun hφ zombie ↦ pooledAttempt_begins hφ nofun
  | succ left ih =>
    refine fun hφ zombie ↦ pooledAttempt_begins hφ fun z d hd ↦ ?_
    obtain rfl := Option.some.inj hd
    exact ih (Or.inl rfl) z

/-- How `connect_direct` ends: with a connection, outside again, or, for a zero timeout, without
having tried and with an error that is not worth a retry. -/
inductive Dialled : BeginPhase → Result Unit → Prop
  | connected (u : Unit) : Dialled connected (.ok u)
  | outside (e : PgStoreError) : Dialled outside (.error e)
  | untried (e : PgStoreError) : e.isTransient = false → Dialled admitted (.error e)

theorem connectDirect_follows (timeout : Duration) :
    (connectDirect timeout).Follows (May .direct) next Dialled admitted := by
  rw [connectDirect]
  split_ifs
  · exact .untried _ rfl
  · refine ⟨.connect rfl, fun r φ hφ ↦ ?_⟩
    obtain rfl := Option.some.inj hφ
    rcases r with _ | (e | u)
    · exact .outside _
    · exact .outside _
    · exact .connected ()

theorem rollback_begins {d : StoreAsync (Result PgTransaction)}
    (hd : Begins .direct write outside d) :
    Begins .direct write failed (execute .rollback .direct >>= fun _ ↦ d) := by
  refine ⟨.rollback rfl, fun _ φ hφ ↦ ?_⟩
  obtain rfl := Option.some.inj hφ
  exact hd

theorem directAttempt_begins {φ : BeginPhase} {attempt : ℕ}
    {again : Option (StoreAsync (Result PgTransaction))} (hφ : φ = outside ∨ φ = admitted)
    (hagain : ∀ d ∈ again, Begins .direct write outside d) :
    Begins .direct write φ (s.directAttempt write attempt again) := by
  refine look_begins hφ (Dialogue.Follows.bind (connectDirect_follows _) ?_)
  rintro φ r (_ | e | ⟨e, he⟩)
  · refine ⟨.keepalive _ rfl, fun _ φ hφ ↦ ?_⟩
    obtain rfl := Option.some.inj hφ
    rw [sessionSql_eq]
    refine ⟨.session _ rfl, fun r φ hφ ↦ ?_⟩
    obtain rfl := Option.some.inj hφ
    rcases r with _ | (e | u)
    · exact retry_begins nofun hagain
    · exact retry_begins nofun hagain
    · refine ⟨.begin _, fun r φ hφ ↦ ?_⟩
      obtain rfl := Option.some.inj hφ
      rcases r with e | u
      · exact rollback_begins (retry_begins nofun hagain)
      · exact started_begins .direct
  · exact retry_begins nofun hagain
  · dsimp only
    rw [he]
    cases again <;> exact ⟨_, rfl⟩

theorem beginDirectFrom_begins (left : ℕ) : ∀ {φ : BeginPhase} (_ : φ = outside ∨ φ = admitted),
    Begins .direct write φ (s.beginDirectFrom write left) := by
  induction left with
  | zero => exact fun hφ ↦ directAttempt_begins hφ nofun
  | succ left ih =>
    refine fun hφ ↦ directAttempt_begins hφ fun d hd ↦ ?_
    obtain rfl := Option.some.inj hd
    exact ih (Or.inl rfl)

/-- **Every `begin` follows the protocol**, in either mode. -/
theorem begin_follows (s : PgStore) (write : Bool) :
    Begins s.mode write outside (s.begin write) := by
  refine look_begins (Or.inl rfl) ?_
  cases hmode : s.mode with
  | pooled => exact beginPooledFrom_begins _ (Or.inr rfl) _
  | direct => exact beginDirectFrom_begins _ (Or.inr rfl)

/-! ## What `begin` sends -/

/-- The messages of a `begin`, in either mode. -/
def Sends (s : PgStore) : StoreReq → Option StoreNote → Prop
  | .execute sql, _ => sql = s.beginSql ∨ sql = .rollback
  | .executeTimed sql, _ => sql = s.keepaliveSql ∨ sql = s.sessionSql
  | _, _ => True

theorem retry_sends {worth : Bool} {ms : ℕ} {held : StoreNote} {e : PgStoreError}
    {again : Option (StoreAsync (Result PgTransaction))}
    (hagain : ∀ d ∈ again, d.All s.Sends fun _ ↦ True) :
    (retry worth ms held e again).All s.Sends fun _ ↦ True := by
  cases again with
  | none => trivial
  | some d =>
    rw [retry]
    split_ifs
    · exact ⟨trivial, fun _ ↦ hagain d rfl⟩
    · trivial

theorem directAttempt_sends {attempt : ℕ} {again : Option (StoreAsync (Result PgTransaction))}
    (hagain : ∀ d ∈ again, d.All s.Sends fun _ ↦ True) :
    (s.directAttempt write attempt again).All s.Sends fun _ ↦ True := by
  refine ⟨trivial, fun down ↦ ?_⟩
  cases down with
  | true => trivial
  | false =>
    have hconnect : (connectDirect s.connectTimeout).All s.Sends fun _ ↦ True := by
      rw [connectDirect]
      split_ifs
      · trivial
      · refine ⟨trivial, fun r ↦ ?_⟩
        rcases r with _ | (e | u) <;> trivial
    refine Dialogue.All.bind (d := connectDirect s.connectTimeout) hconnect fun r _ ↦ ?_
    rcases r with e | u
    · exact retry_sends hagain
    · refine ⟨Or.inl rfl, fun _ ↦ ⟨Or.inr rfl, fun r ↦ ?_⟩⟩
      rcases r with _ | (e | u)
      · exact retry_sends hagain
      · exact retry_sends hagain
      · refine ⟨Or.inl rfl, fun r ↦ ?_⟩
        rcases r with e | u
        · exact ⟨Or.inr rfl, fun _ ↦ retry_sends hagain⟩
        · exact ⟨trivial, fun _ ↦ ⟨trivial, fun _ ↦ trivial⟩⟩

theorem beginDirectFrom_sends (left : ℕ) :
    (s.beginDirectFrom write left).All s.Sends fun _ ↦ True := by
  induction left with
  | zero => exact directAttempt_sends nofun
  | succ left ih =>
    refine directAttempt_sends fun d hd ↦ ?_
    obtain rfl := Option.some.inj hd
    exact ih

theorem pooledAttempt_sends {attempt : ℕ} {zombie : Bool}
    {again : Bool → Option (StoreAsync (Result PgTransaction))}
    (hagain : ∀ z, ∀ d ∈ again z, d.All s.Sends fun _ ↦ True) :
    (s.pooledAttempt write attempt zombie again).All s.Sends fun _ ↦ True := by
  refine ⟨trivial, fun down ↦ ?_⟩
  cases down with
  | true => trivial
  | false =>
    have hbegin : s.beginWith.All s.Sends fun _ ↦ True := by
      refine ⟨trivial, fun r ↦ ?_⟩
      rcases r with e | u
      · trivial
      · refine ⟨Or.inl rfl, fun r ↦ ?_⟩
        rcases r with e | u
        · exact ⟨trivial, fun _ ↦ trivial⟩
        · trivial
    refine Dialogue.All.bind (d := s.beginWith) hbegin fun r _ ↦ ?_
    rcases r with e | u
    · exact ⟨trivial, fun _ ↦ ⟨trivial, fun _ ↦ retry_sends (hagain _)⟩⟩
    · exact ⟨trivial, fun _ ↦ ⟨trivial, fun _ ↦ trivial⟩⟩

theorem beginPooledFrom_sends (left : ℕ) : ∀ zombie : Bool,
    (s.beginPooledFrom write left zombie).All s.Sends fun _ ↦ True := by
  induction left with
  | zero => exact fun zombie ↦ pooledAttempt_sends nofun
  | succ left ih =>
    refine fun zombie ↦ pooledAttempt_sends fun z d hd ↦ ?_
    obtain rfl := Option.some.inj hd
    exact ih z

/-- **Every message of a `begin` is one of the store's own.** -/
theorem begin_sends (s : PgStore) (write : Bool) :
    (s.begin write).All s.Sends fun _ ↦ True := by
  rw [begin]
  cases s.mode with
  | pooled =>
    refine ⟨trivial, fun down ↦ ?_⟩
    cases down with
    | true => trivial
    | false => exact beginPooledFrom_sends _ _
  | direct =>
    refine ⟨trivial, fun down ↦ ?_⟩
    cases down with
    | true => trivial
    | false => exact beginDirectFrom_sends _

end PgStore

end SurrealPg
