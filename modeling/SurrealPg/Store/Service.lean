import SurrealPg.Schema.Ddl
import SurrealPg.Store.Retry

/-!
# What a store sends on its own account

Besides handing out transactions a store looks after itself: it creates and tunes its table,
answers health checks, and in direct mode keeps a connection alive in the background. All of this
goes over the pool or, in direct mode, over connections of its own, set up by the helpers that
`begin_direct` uses as well; what those ask for is embedded here.

A health check in direct mode makes a second attempt after a transient failure. Whether it is the
connection or `SELECT 1` that fails decides how the failure is reported.
-/

namespace SurrealPg

open Semantics

inductive ServiceSql
  | select1
  | createTable (statements : List (Postgres.Ddl ParamValue))
  | tuneTable (statements : List (Postgres.Ddl ParamValue))

inductive ServiceReq
  /-- As in `begin` and `shutdown`. -/
  | store (q : StoreReq)
  /-- `cancel.is_cancelled()` -/
  | isCancelled
  | sleep (d : Duration)
  /-- On a connection of its own. -/
  | execute (sql : ServiceSql)
  /-- `timeout(limit, execute(..))` -/
  | executeTimed (limit : Duration) (sql : ServiceSql)
  /-- The partition count, with the table name bound. -/
  | fetchCount (table : String)
  /-- A connection of its own goes out of scope. -/
  | closeConn
  /-- `PgPoolOptions::connect_with`, which panics over a deadline that no `Instant` can be. -/
  | connectPool
  | executeOnPool (sql : ServiceSql)
  | fetchCountOnPool (table : String)
  /-- `tokio::spawn(direct_mode_heartbeat(..))` -/
  | spawnHeartbeat
  /-- `c.cancel()` in the destructor of the guard. -/
  | cancelHeartbeat

abbrev ServiceReq.Answer : ServiceReq → Type
  | .store q => q.Answer
  | .isCancelled => Bool
  | .execute _ | .executeOnPool _ => Except SqlxError Unit
  | .executeTimed .. | .connectPool => Option (Except SqlxError Unit)
  | .fetchCount _ | .fetchCountOnPool _ => Except SqlxError ℤ
  | .sleep _ | .closeConn | .spawnHeartbeat | .cancelHeartbeat => Unit

/-- The future of something a store does on its own account. -/
abbrev Service (α : Type) := Dialogue ServiceReq ServiceReq.Answer StoreNote α

namespace Service

/-- What `begin` and `shutdown` are made of serves here as well. -/
def ofStore {α : Type} (d : StoreAsync α) : Service α := d.embed .store (fun _ r ↦ r) id

def isCancelled : Service Bool := .ask .isCancelled none .done

def sleep (d : Duration) (held : StoreNote) : Service Unit := .ask (.sleep d) (some held) .done

def execute (sql : ServiceSql) : Service (Except SqlxError Unit) :=
  .ask (.execute sql) (some .direct) .done

def executeTimed (limit : Duration) (sql : ServiceSql) :
    Service (Option (Except SqlxError Unit)) :=
  .ask (.executeTimed limit sql) (some .direct) .done

def closeConn : Service Unit := .ask .closeConn none .done

/-- A connection of its own, if there is one, goes out of scope. -/
def release (held : StoreNote) : Service Unit :=
  match held with
  | .direct => closeConn
  | .unconnected | .pooled => pure ()

def executeOnPool (sql : ServiceSql) : Service (Except SqlxError Unit) :=
  .ask (.executeOnPool sql) (some .pooled) .done

end Service

namespace PgStore

open Service

/-- `connect_direct_with_session`: what becomes of the settings is only logged. -/
def connectDirectWithSession (connectTimeout : Duration) (keepaliveSql sessionSql : RawSql) :
    StoreAsync (Result Unit) := do
  match ← connectDirect connectTimeout with
  | .error e => return .error e
  | .ok _ => do
    let _ ← PgStore.executeTimed keepaliveSql .direct
    let _ ← PgStore.executeTimed sessionSql .direct
    return .ok ()

/-! ## Health checks -/

def MAX_ATTEMPTS : ℕ := 2

/-- What a failed `SELECT 1` is reported as, after the first attempt as well. -/
def selectFailed (attempt : ℕ) (e : PgStoreError) : PgStoreError :=
  .other s!"health_check: SELECT 1 failed after {attempt} attempts (last: {e.display})"

/-- What follows a failed attempt: a pause and the next one, if there is one and the failure is
worth it. What is held lives through the pause. -/
def healthRetry (held : StoreNote) (e report : PgStoreError)
    (again : Option (Service (Result Unit))) : Service (Result Unit) :=
  match if e.isTransient then again else none with
  | some next => do
    Service.sleep (.fromMillis 500) held
    release held
    next
  | none => do
    release held
    return .error report

/-- One round of the loop of `health_check`; `again` is the next, if there is one. -/
def healthAttempt (s : PgStore) (attempt : ℕ) (again : Option (Service (Result Unit))) :
    Service (Result Unit) := do
  match ← ofStore (connectDirect s.connectTimeout) with
  | .ok _ => do
    match ← Service.execute .select1 with
    | .ok _ => do
      closeConn
      return .ok ()
    | .error e =>
      let pgErr := PgStoreError.fromSqlx none e
      healthRetry .direct pgErr (selectFailed attempt pgErr) again
  | .error e => healthRetry .unconnected e (gaveUp "health_check: connect" attempt e) again

/-- Execute a lightweight health check. -/
def healthCheck (s : PgStore) : Service (Result Unit) :=
  match s.mode with
  | .pooled => do
    match ← executeOnPool .select1 with
    | .error e => return .error (.fromSqlx none e)
    | .ok _ => return .ok ()
  | .direct => s.healthAttempt 1 (some (s.healthAttempt MAX_ATTEMPTS none))

/-! ## What a health check comes to -/

/-- The answers given to one attempt. -/
abbrev ServiceAnswers := (q : ServiceReq) → q.Answer

/-- What an observer counts: the pauses, the connections made, those that are still open, and the
`SELECT 1`s. -/
structure Vitals where
  pauses : ℕ
  opened : ℕ
  conns : ℕ
  selects : ℕ
  deriving DecidableEq

/-- Every attempt has answers of its own, and a pause comes between two of them. -/
def Vitals.answer (env : ℕ → ServiceAnswers) (v : Vitals) :
    (q : ServiceReq) → q.Answer × Vitals
  | .sleep _ => ((), { v with pauses := v.pauses + 1 })
  | .store .connect =>
    match env (v.pauses + 1) (.store .connect) with
    | some (.ok u) => (some (.ok u), { v with opened := v.opened + 1, conns := v.conns + 1 })
    | r => (r, v)
  | .execute .select1 =>
    (env (v.pauses + 1) (.execute .select1), { v with selects := v.selects + 1 })
  | .closeConn => ((), { v with conns := v.conns - 1 })
  | q => (env (v.pauses + 1) q, v)

/-- A health check's attempt that has failed: on the connection or on `SELECT 1`. -/
structure HealthFailure where
  connected : Bool
  error : PgStoreError

namespace HealthFailure

def isTransient (f : HealthFailure) : Bool := f.error.isTransient

/-- What is reported where no attempt follows the given one. -/
def report (attempt : ℕ) (f : HealthFailure) : PgStoreError :=
  if f.connected then selectFailed attempt f.error
  else gaveUp "health_check: connect" attempt f.error

/-- **A report is no invitation to try again**, unless it is the bare failure of a connection. -/
theorem isTransient_report {k : ℕ} {f : HealthFailure} (h : k = 1 → f.isTransient = false)
    (hk : 1 ≤ k) : (f.report k).isTransient = false := by
  rw [report]
  split_ifs
  · rfl
  · rw [gaveUp]
    split_ifs with hlt
    · rfl
    · exact h (by omega)

end HealthFailure

/-- What the answers make of an attempt. -/
def healthOutcome (s : PgStore) (r : ServiceAnswers) : Except HealthFailure Unit :=
  match s.connectOutcome fun q ↦ r (.store q) with
  | .error e => .error ⟨false, e⟩
  | .ok _ =>
    match r (.execute .select1) with
    | .error e => .error ⟨true, .fromSqlx none e⟩
    | .ok _ => .ok ()

section

variable (s : PgStore) (env : ℕ → ServiceAnswers)

/-- What each attempt comes to. -/
def healthOutcomes (k : ℕ) : Except HealthFailure Unit := s.healthOutcome (env k)

/-- How the loop ends. -/
def healthVerdict : Verdict HealthFailure Unit :=
  retrying (fun _ ↦ false) HealthFailure.isTransient (s.healthOutcomes env) 1 1

end

/-- What a health check returns. -/
def healthReturned : Verdict HealthFailure Unit → Result Unit
  | .success .. => .ok ()
  | .gaveUp k f => .error (f.report k)
  | .barred _ => .ok ()

/-- What is held is let go. -/
def Vitals.released (held : StoreNote) (v : Vitals) : Vitals :=
  match held with
  | .direct => { v with conns := v.conns - 1 }
  | .unconnected | .pooled => v

/-- Between two attempts: no connection is open, each had one `SELECT 1`, and there was no more than
one for each attempt made. -/
structure Vitals.Settled (v : Vitals) (attempts : ℕ) : Prop where
  conns_eq : v.conns = 0
  selects_eq : v.selects = v.opened
  opened_le : v.opened ≤ attempts

/-- Evaluated against the answers, the program ends as the row of attempts does. -/
structure Probes (env : ℕ → ServiceAnswers) (v : Vitals) (d : Service (Result Unit))
    (w : Verdict HealthFailure Unit) : Prop where
  result_eq : (d.eval (Vitals.answer env) v).1 = healthReturned w
  pauses_eq : (d.eval (Vitals.answer env) v).2.pauses + 1 = w.last
  settled : (d.eval (Vitals.answer env) v).2.Settled w.last

section

variable {s : PgStore} {env : ℕ → ServiceAnswers} {v : Vitals}

theorem eval_ofStore_connectDirect :
    (ofStore (connectDirect s.connectTimeout)).eval (Vitals.answer env) v =
      match s.connectOutcome fun q ↦ env (v.pauses + 1) (.store q) with
      | .ok u => (.ok u, { v with opened := v.opened + 1, conns := v.conns + 1 })
      | .error e => (.error e, v) := by
  rw [connectDirect, connectOutcome]
  split_ifs with hzero
  · rfl
  · rw [ofStore, Dialogue.embed_ask, Dialogue.eval_ask, Vitals.answer]
    rcases hconnect : env (v.pauses + 1) (.store .connect) with _ | e | _ <;> rfl

theorem eval_select1 :
    (Service.execute .select1).eval (Vitals.answer env) v =
      (env (v.pauses + 1) (.execute .select1), { v with selects := v.selects + 1 }) := rfl

theorem eval_release {held : StoreNote} :
    (release held).eval (Vitals.answer env) v = ((), v.released held) := by
  cases held <;> rfl

theorem eval_sleep {d : Duration} {held : StoreNote} :
    (Service.sleep d held).eval (Vitals.answer env) v =
      ((), { v with pauses := v.pauses + 1 }) := rfl

theorem pauses_released (held : StoreNote) : (v.released held).pauses = v.pauses := by
  cases held <;> rfl

theorem Probes.bind {α : Type} {d : Service α} {a : α} {v' : Vitals}
    {f : α → Service (Result Unit)} {w : Verdict HealthFailure Unit}
    (hd : d.eval (Vitals.answer env) v = (a, v')) (h : Probes env v' (f a) w) :
    Probes env v (d >>= f) w := by
  obtain ⟨hresult, hlast, hsettled⟩ := h
  refine ⟨?_, ?_, ?_⟩ <;> rw [Dialogue.eval_bind, hd]
  · exact hresult
  · exact hlast
  · exact hsettled

theorem probes_healthRetry {f : HealthFailure} {held : StoreNote}
    {again : Option (Service (Result Unit))} {next : Option (Verdict HealthFailure Unit)}
    (hv : ∀ v' : Vitals, v'.opened = v.opened → v'.selects = v.selects → v'.conns = v.conns →
      (v'.released held).Settled (v.pauses + 1))
    (hagain : ∀ v' : Vitals, v'.pauses = v.pauses + 1 → v'.Settled v'.pauses →
      Option.Rel (Probes env v') again next) :
    Probes env v (healthRetry held f.error (f.report (v.pauses + 1)) again)
      (conclude HealthFailure.isTransient (v.pauses + 1) next (.error f)) := by
  have hstop : Probes env v (do release held; return .error (f.report (v.pauses + 1)))
      (.gaveUp (v.pauses + 1) f) := by
    refine Probes.bind eval_release ⟨rfl, ?_, hv v rfl rfl rfl⟩
    exact congrArg (· + 1) (pauses_released held)
  rw [conclude, healthRetry, HealthFailure.isTransient]
  cases f.error.isTransient with
  | false => exact hstop
  | true =>
    let v' : Vitals := { v with pauses := v.pauses + 1 }
    have hpauses : (v'.released held).pauses = v.pauses + 1 := pauses_released held
    have hnext := hagain (v'.released held) hpauses (hpauses ▸ hv v' rfl rfl rfl)
    cases hnext with
    | none => exact hstop
    | some h => exact Probes.bind eval_sleep (Probes.bind eval_release h)

theorem probes_healthAttempt (hv : v.Settled v.pauses) {again : Option (Service (Result Unit))}
    {next : Option (Verdict HealthFailure Unit)}
    (hagain : ∀ v' : Vitals, v'.pauses = v.pauses + 1 → v'.Settled v'.pauses →
      Option.Rel (Probes env v') again next) :
    Probes env v (s.healthAttempt (v.pauses + 1) again)
      (turn (fun _ ↦ false) HealthFailure.isTransient (s.healthOutcomes env) (v.pauses + 1)
        next) := by
  obtain ⟨hconns, hselects, hopened⟩ := hv
  rw [turn_of_clear rfl, healthOutcomes, healthOutcome, healthAttempt]
  cases hconnect : s.connectOutcome fun q ↦ env (v.pauses + 1) (.store q) with
  | error e =>
    refine Probes.bind (by rw [eval_ofStore_connectDirect, hconnect]) ?_
    refine probes_healthRetry (f := ⟨false, e⟩) (fun v' ho hs hc ↦ ⟨?_, ?_, ?_⟩) hagain
    · exact hc.trans hconns
    · exact hs.trans (hselects.trans ho.symm)
    · exact ho.le.trans (hopened.trans (Nat.le_succ _))
  | ok u =>
    refine Probes.bind (by rw [eval_ofStore_connectDirect, hconnect]) ?_
    refine Probes.bind eval_select1 ?_
    cases hselect : env (v.pauses + 1) (.execute .select1) with
    | ok _ =>
      refine Probes.bind rfl ⟨rfl, rfl, ?_, ?_, ?_⟩
      · exact hconns
      · exact congrArg (· + 1) hselects
      · exact Nat.succ_le_succ hopened
    | error e =>
      refine probes_healthRetry (f := ⟨true, .fromSqlx none e⟩) (fun v' ho hs hc ↦ ⟨?_, ?_, ?_⟩)
        hagain
      · change v'.conns - 1 = 0
        rw [hc, hconns]
        rfl
      · exact hs.trans ((congrArg (· + 1) hselects).trans ho.symm)
      · exact ho.le.trans (Nat.succ_le_succ hopened)

/-- **A health check over connections of its own is a row of two attempts.** -/
theorem probes_healthCheck (hmode : s.mode = .direct) :
    Probes env ⟨0, 0, 0, 0⟩ s.healthCheck (s.healthVerdict env) := by
  rw [healthCheck, hmode]
  refine probes_healthAttempt (v := ⟨0, 0, 0, 0⟩) ⟨rfl, rfl, le_rfl⟩ fun v' hpauses hv' ↦ .some ?_
  have hlast : Probes env v' (s.healthAttempt (v'.pauses + 1) none)
      (turn (fun _ ↦ false) HealthFailure.isTransient (s.healthOutcomes env) (v'.pauses + 1)
        none) := probes_healthAttempt hv' fun _ _ _ ↦ .none
  rwa [hpauses] at hlast

/-! ## What it promises -/

/-- Attempt `k` fails and may be followed by another. -/
def HealthFailsTransiently (s : PgStore) (env : ℕ → ServiceAnswers) (k : ℕ) : Prop :=
  ∃ f, s.healthOutcomes env k = .error f ∧ f.isTransient = true

/-- A health check that returns `r`, as an observer who counts sees it. -/
structure ChecksHealth (s : PgStore) (env : ℕ → ServiceAnswers) (r : Result Unit) (v : Vitals) :
    Prop where
  pauses_le : v.pauses ≤ 1
  again_iff : v.pauses = 1 ↔ s.HealthFailsTransiently env 1
  conns_eq : v.conns = 0
  selects_eq : v.selects = v.opened
  opened_le : v.opened ≤ v.pauses + 1
  ok_iff : r = .ok () ↔ s.healthOutcomes env 1 = .ok () ∨
    s.HealthFailsTransiently env 1 ∧ s.healthOutcomes env 2 = .ok ()
  error_iff : ∀ e, r = .error e ↔ ∃ f, s.healthOutcomes env (v.pauses + 1) = .error f ∧
    e = f.report (v.pauses + 1)
  not_transient : ∀ e, r = .error e → e.isTransient = false

theorem repeats_health_iff {k : ℕ} :
    Repeats (fun _ ↦ false) HealthFailure.isTransient (s.healthOutcomes env) k ↔
      s.HealthFailsTransiently env k :=
  ⟨fun h ↦ h.fails, fun h ↦ ⟨rfl, h⟩⟩

/-- The last attempt made is the second exactly if the first has failed transiently. -/
theorem healthVerdict_eq (s : PgStore) (env : ℕ → ServiceAnswers) : ∃ i,
    (i = 1 ∧ ¬s.HealthFailsTransiently env 1 ∨ i = 2 ∧ s.HealthFailsTransiently env 1) ∧
      s.healthVerdict env =
        turn (fun _ ↦ false) HealthFailure.isTransient (s.healthOutcomes env) i none := by
  by_cases h : s.HealthFailsTransiently env 1
  · refine ⟨2, Or.inr ⟨rfl, h⟩, ?_⟩
    rw [healthVerdict, retrying, turn_some_of_repeats (repeats_health_iff.mpr h), retrying]
  · refine ⟨1, Or.inl ⟨rfl, h⟩, ?_⟩
    rw [healthVerdict, retrying, turn_of_not_repeats (mt repeats_health_iff.mp h)]

end

/-- **The health check of direct mode**, whatever the answers: two attempts at most, the second
half a second after a transient failure of the first; nothing left open; and a report that does not
invite to try again. -/
theorem healthCheck_checks (s : PgStore) (hmode : s.mode = .direct) (env : ℕ → ServiceAnswers) :
    ChecksHealth s env (s.healthCheck.eval (Vitals.answer env) ⟨0, 0, 0, 0⟩).1
      (s.healthCheck.eval (Vitals.answer env) ⟨0, 0, 0, 0⟩).2 := by
  obtain ⟨hresult, hlast, hconns, hselects, hopened⟩ := probes_healthCheck hmode
  obtain ⟨i, hi, hverdict⟩ := s.healthVerdict_eq env
  rw [hverdict] at hresult hlast hopened
  rw [last_turn_none] at hlast hopened
  rw [turn_none_of_clear rfl] at hresult
  generalize s.healthCheck.eval (Vitals.answer env) ⟨0, 0, 0, 0⟩ = e at *
  obtain ⟨r, v⟩ := e
  dsimp only at *
  have hagain : v.pauses = 1 ↔ s.HealthFailsTransiently env 1 := by
    obtain ⟨rfl, h⟩ | ⟨rfl, h⟩ := hi
    · exact iff_of_false (by omega) h
    · exact iff_of_true (by omega) h
  have hend : s.healthOutcomes env 1 = .ok () ∨
      s.HealthFailsTransiently env 1 ∧ s.healthOutcomes env 2 = .ok () ↔
        s.healthOutcomes env i = .ok () := by
    obtain ⟨rfl, h⟩ | ⟨rfl, h⟩ := hi
    · exact or_iff_left fun h' ↦ h h'.1
    · obtain ⟨f, hf, htransient⟩ := h
      constructor
      · rintro (hok | ⟨-, hok⟩)
        · exact nomatch hf.symm.trans hok
        · exact hok
      · exact fun hok ↦ Or.inr ⟨⟨f, hf, htransient⟩, hok⟩
  have hle : i ≤ 2 := by omega
  rw [← hlast] at hopened
  refine ⟨by omega, hagain, hconns, hselects, hopened, hend.trans ?_ |>.symm, fun e ↦ ?_, ?_⟩
  · cases ho : s.healthOutcomes env i with
    | ok _ => exact iff_of_true rfl (by rw [hresult, ho, healthReturned])
    | error f => exact iff_of_false nofun (by rw [hresult, ho, healthReturned]; exact nofun)
  · rw [hresult, hlast]
    cases ho : s.healthOutcomes env i with
    | ok _ => exact iff_of_false nofun fun ⟨f, h, _⟩ ↦ nomatch h
    | error f =>
      rw [healthReturned, Except.error.injEq]
      exact ⟨fun h ↦ ⟨f, rfl, h.symm⟩, fun ⟨_, h, he⟩ ↦ Except.error.inj h ▸ he.symm⟩
  · rintro e rfl
    cases ho : s.healthOutcomes env i with
    | ok _ =>
      rw [ho] at hresult
      exact nomatch hresult
    | error f =>
      rw [ho, healthReturned, Except.error.injEq] at hresult
      rw [hresult]
      refine HealthFailure.isTransient_report (fun h ↦ ?_) (by omega)
      obtain ⟨-, h'⟩ | ⟨rfl, -⟩ := hi
      · rw [h] at ho
        exact Bool.eq_false_iff.mpr fun ht ↦ h' ⟨f, ho, ht⟩
      · exact absurd h (by decide)

/-- A server that accepts connections and resets them at the first message. -/
def resetting : ServiceAnswers
  | .store q => stalled q
  | .isCancelled => false
  | .execute _ | .executeOnPool _ => .error (.io "connection reset")
  | .executeTimed .. | .connectPool => some (.error (.io "connection reset"))
  | .fetchCount _ | .fetchCountOnPool _ => .error (.io "connection reset")
  | .sleep _ | .closeConn | .spawnHeartbeat | .cancelHeartbeat => ()

/-- Two connections and two `SELECT 1`s. -/
theorem healthCheck_checks_resetting :
    ChecksHealth (.withDefaults .direct) (fun _ ↦ resetting)
      ((withDefaults .direct).healthCheck.eval (Vitals.answer fun _ ↦ resetting) ⟨0, 0, 0, 0⟩).1
      ((withDefaults .direct).healthCheck.eval (Vitals.answer fun _ ↦ resetting)
        ⟨0, 0, 0, 0⟩).2 ∧
    ((withDefaults .direct).healthCheck.eval (Vitals.answer fun _ ↦ resetting)
      ⟨0, 0, 0, 0⟩).2 = ⟨1, 2, 0, 2⟩ :=
  ⟨healthCheck_checks (.withDefaults .direct) rfl fun _ ↦ resetting, by decide +kernel⟩

end PgStore

end SurrealPg
