import SurrealPg.Store.Begin
import SurrealPg.Classification
import SurrealPg.Semantics.Retry

/-!
# The retry loops

A loop of `begin` is run against answers that differ from attempt to attempt in any way: what the
flag reads, what the pool or the server says, what the counters of the others are. What an attempt
comes to is then a function of the answers given to it, and the loop is `retrying` over these
outcomes: three attempts, the flag as the bar, a transient failure as the one worth another.

Whether the caller can tell what class the last failure was of is another matter. From the second
attempt on the failure is reported in words, which are of no class.
-/

namespace SurrealPg

open Semantics

/-- Where an attempt to begin has failed. -/
inductive BeginStage
  | pooled
  | connect
  | sessionTimeout
  | session
  | begin
  deriving DecidableEq

/-- A failed attempt. -/
structure BeginFailure where
  stage : BeginStage
  error : PgStoreError

namespace BeginFailure

def isTransient (f : BeginFailure) : Bool := f.error.isTransient

/-- What is reported where no attempt follows the given one. -/
def report (attempt : ℕ) (f : BeginFailure) : PgStoreError :=
  match f.stage with
  | .pooled => PgStore.gaveUp "begin_pooled" attempt f.error
  | .connect => PgStore.gaveUp "begin_direct: TCP connect" attempt f.error
  | .sessionTimeout => f.error
  | .session => PgStore.gaveUp "begin_direct: session SQL" attempt f.error
  | .begin => PgStore.gaveUp "begin_direct: BEGIN" attempt f.error

end BeginFailure

/-! ## Attempts -/

/-- The answers given to one attempt. -/
abbrev StoreAnswers := (q : StoreReq) → q.Answer

namespace PgStore

/-- The loop of the store's mode. -/
def beginLoop (s : PgStore) (write : Bool) : StoreAsync (Result PgTransaction) :=
  match s.mode with
  | .pooled => s.beginPooled write
  | .direct => s.beginDirect write

/-- The transaction that the loop hands out. -/
def begun (s : PgStore) (write : Bool) : PgTransaction :=
  match s.mode with
  | .pooled => .newPooled write
  | .direct => .newDirect write

/-- What the answers make of `begin_with`. -/
def beginWithOutcome (s : PgStore) (r : StoreAnswers) : Except SqlxError Unit :=
  match r .acquire with
  | .error e => .error e
  | .ok _ => r (.execute s.beginSql)

/-- What the answers make of an attempt over the pool. -/
def pooledOutcome (s : PgStore) (r : StoreAnswers) : Except BeginFailure Unit :=
  match s.beginWithOutcome r with
  | .error e => .error ⟨.pooled, .fromSqlx none e⟩
  | .ok _ => .ok ()

/-- What the answers make of the connection of an attempt. -/
def connectOutcome (s : PgStore) (r : StoreAnswers) : Result Unit :=
  if s.connectTimeout.isZero then
    .error (.other
      "connect_direct: connect_timeout must be > 0 (pool mode sets it to ZERO — caller bug)")
  else match r .connect with
    | some (.ok _) => .ok ()
    | some (.error e) => .error (.fromSqlx none e)
    | none => .error (.connectTimeout s.connectTimeout)

/-- What the answers make of an attempt over a connection of its own. -/
def directOutcome (s : PgStore) (r : StoreAnswers) : Except BeginFailure Unit :=
  match s.connectOutcome r with
  | .error e => .error ⟨.connect, e⟩
  | .ok _ =>
    match r (.executeTimed s.sessionSql) with
    | none => .error ⟨.sessionTimeout, .connectTimeout s.connectTimeout⟩
    | some (.error e) => .error ⟨.session, .fromSqlx none e⟩
    | some (.ok _) =>
      match r (.execute s.beginSql) with
      | .error e => .error ⟨.begin, .fromSqlx none e⟩
      | .ok _ => .ok ()

def outcome (s : PgStore) (r : StoreAnswers) : Except BeginFailure Unit :=
  match s.mode with
  | .pooled => s.pooledOutcome r
  | .direct => s.directOutcome r

/-! ## The loops -/

/-- The attempt that the caller is at and the counters of the store. -/
structure Meter where
  attempt : ℕ
  txStarted : UInt64
  txActive : UInt64

/-- Every attempt starts with a look at the flag and has answers of its own. -/
def Meter.answer (env : ℕ → StoreAnswers) (m : Meter) : (q : StoreReq) → q.Answer × Meter
  | .loadShuttingDown =>
    (env (m.attempt + 1) .loadShuttingDown, { m with attempt := m.attempt + 1 })
  | .addStarted => ((), { m with txStarted := m.txStarted + 1 })
  | .addActive => ((), { m with txActive := m.txActive + 1 })
  | q => (env m.attempt q, m)

/-- What a row of attempts makes of the counters. -/
def Meter.after (m : Meter) : Verdict BeginFailure Unit → Meter
  | .success k _ => ⟨k, m.txStarted + 1, m.txActive + 1⟩
  | .gaveUp k _ | .barred k => ⟨k, m.txStarted, m.txActive⟩

/-- What a row of attempts returns. -/
def returned (s : PgStore) (write : Bool) : Verdict BeginFailure Unit → Result PgTransaction
  | .success _ _ => .ok (s.begun write)
  | .gaveUp k f => .error (f.report k)
  | .barred _ => .error (.other SHUTTING_DOWN_MSG)

/-- The flag, as each attempt reads it. -/
def flag (env : ℕ → StoreAnswers) (k : ℕ) : Bool := env k .loadShuttingDown

/-- What each attempt comes to. -/
def outcomes (s : PgStore) (env : ℕ → StoreAnswers) (k : ℕ) : Except BeginFailure Unit :=
  s.outcome (env k)

/-- How the loop ends. -/
def verdict (s : PgStore) (env : ℕ → StoreAnswers) : Verdict BeginFailure Unit :=
  retrying (flag env) BeginFailure.isTransient (s.outcomes env) 2 1

/-- Evaluated against the answers, the program ends as the row of attempts does. -/
def Plays (s : PgStore) (write : Bool) (env : ℕ → StoreAnswers) (m : Meter)
    (d : StoreAsync (Result PgTransaction)) (v : Verdict BeginFailure Unit) : Prop :=
  d.eval (Meter.answer env) m = (s.returned write v, m.after v)

variable {s : PgStore} {write : Bool} {env : ℕ → StoreAnswers} {m : Meter}

/-! ## One attempt -/

theorem eval_execute (sql : RawSql) (held : StoreNote) :
    (execute sql held).eval (Meter.answer env) m = (env m.attempt (.execute sql), m) := rfl

theorem eval_executeTimed (sql : RawSql) (held : StoreNote) :
    (executeTimed sql held).eval (Meter.answer env) m =
      (env m.attempt (.executeTimed sql), m) := rfl

theorem eval_beginWith :
    s.beginWith.eval (Meter.answer env) m = (s.beginWithOutcome (env m.attempt), m) := by
  have hacquire : (Meter.answer env m .acquire) = (env m.attempt .acquire, m) := rfl
  rw [beginWith, Dialogue.eval_ask, hacquire, beginWithOutcome]
  cases env m.attempt .acquire with
  | error e => rfl
  | ok _ =>
    dsimp only
    rw [Dialogue.eval_bind, eval_execute]
    cases env m.attempt (.execute s.beginSql) <;> rfl

theorem eval_connectDirect :
    (connectDirect s.connectTimeout).eval (Meter.answer env) m =
      (s.connectOutcome (env m.attempt), m) := by
  have hconnect : (Meter.answer env m .connect) = (env m.attempt .connect, m) := rfl
  rw [connectDirect, connectOutcome]
  split_ifs with hzero
  · rfl
  · rw [Dialogue.eval_ask, hconnect]
    rcases env m.attempt .connect with _ | e | _ <;> rfl

theorem Plays.bind {α : Type} {d : StoreAsync α} {a : α}
    {f : α → StoreAsync (Result PgTransaction)} {v : Verdict BeginFailure Unit}
    (hd : d.eval (Meter.answer env) m = (a, m)) (h : Plays s write env m (f a) v) :
    Plays s write env m (d >>= f) v := by
  rw [Plays, Dialogue.eval_bind, hd]
  exact h

theorem plays_started : Plays s write env m (started (s.begun write)) (.success m.attempt ()) :=
  rfl

section

variable {next : Option (Verdict BeginFailure Unit)}

theorem plays_retry (f : BeginFailure) (ms : ℕ) (held : StoreNote)
    {again : Option (StoreAsync (Result PgTransaction))}
    (hagain : Option.Rel (Plays s write env m) again next) :
    Plays s write env m (retry f.isTransient ms held (f.report m.attempt) again)
      (conclude BeginFailure.isTransient m.attempt next (.error f)) := by
  cases hagain with
  | none =>
    rw [conclude, Option.getD_none, ite_self]
    rfl
  | some h =>
    rw [conclude]
    cases hf : f.isTransient with
    | false => rfl
    | true => exact h

theorem plays_attempt {body : StoreAsync (Result PgTransaction)}
    (h : Plays s write env { m with attempt := m.attempt + 1 } body
      (conclude BeginFailure.isTransient (m.attempt + 1) next
        (s.outcome (env (m.attempt + 1))))) :
    Plays s write env m
      (do
        if ← loadShuttingDown then return .error (.other SHUTTING_DOWN_MSG)
        body)
      (turn (flag env) BeginFailure.isTransient (s.outcomes env) (m.attempt + 1) next) := by
  have hload : loadShuttingDown.eval (Meter.answer env) m =
      (flag env (m.attempt + 1), { m with attempt := m.attempt + 1 }) := rfl
  rw [Plays, Dialogue.eval_bind, hload]
  cases hflag : flag env (m.attempt + 1) with
  | true =>
    rw [turn_of_barred hflag]
    rfl
  | false =>
    rw [turn_of_clear hflag]
    exact h

theorem plays_pooledAttempt (hmode : s.mode = .pooled) (zombie : Bool)
    {again : Bool → Option (StoreAsync (Result PgTransaction))}
    (hagain : ∀ zombie,
      Option.Rel (Plays s write env { m with attempt := m.attempt + 1 }) (again zombie) next) :
    Plays s write env m (s.pooledAttempt write (m.attempt + 1) zombie again)
      (turn (flag env) BeginFailure.isTransient (s.outcomes env) (m.attempt + 1) next) := by
  refine plays_attempt (Plays.bind eval_beginWith ?_)
  rw [outcome, hmode]
  dsimp only
  rw [pooledOutcome]
  cases s.beginWithOutcome (env (m.attempt + 1)) with
  | ok _ =>
    have hbegun : s.begun write = .newPooled write := by rw [begun, hmode]
    exact hbegun ▸ plays_started
  | error e =>
    refine Plays.bind rfl (Plays.bind rfl ?_)
    exact plays_retry ⟨.pooled, .fromSqlx none e⟩ _ _ (hagain _)

theorem plays_directAttempt (hmode : s.mode = .direct)
    {again : Option (StoreAsync (Result PgTransaction))}
    (hagain :
      Option.Rel (Plays s write env { m with attempt := m.attempt + 1 }) again next) :
    Plays s write env m (s.directAttempt write (m.attempt + 1) again)
      (turn (flag env) BeginFailure.isTransient (s.outcomes env) (m.attempt + 1) next) := by
  refine plays_attempt (Plays.bind eval_connectDirect ?_)
  rw [outcome, hmode]
  dsimp only
  rw [directOutcome]
  cases s.connectOutcome (env (m.attempt + 1)) with
  | error e => exact plays_retry ⟨.connect, e⟩ _ _ hagain
  | ok _ =>
    -- whatever becomes of the keepalive settings
    refine Plays.bind (eval_executeTimed _ _) (Plays.bind (eval_executeTimed _ _) ?_)
    dsimp only
    match env (m.attempt + 1) (.executeTimed s.sessionSql) with
    | none => exact plays_retry ⟨.sessionTimeout, .connectTimeout s.connectTimeout⟩ _ _ hagain
    | some (.error e) => exact plays_retry ⟨.session, .fromSqlx none e⟩ _ _ hagain
    | some (.ok _) =>
      refine Plays.bind (eval_execute _ _) ?_
      dsimp only
      cases env (m.attempt + 1) (.execute s.beginSql) with
      | ok _ =>
        have hbegun : s.begun write = .newDirect write := by rw [begun, hmode]
        exact hbegun ▸ plays_started
      | error e =>
        refine Plays.bind (eval_execute _ _) ?_
        exact plays_retry ⟨.begin, .fromSqlx none e⟩ _ _ hagain

end

/-! ## The loops -/

theorem plays_beginPooledFrom (hmode : s.mode = .pooled) (left : ℕ) (zombie : Bool) (m : Meter)
    (hm : m.attempt + left = BEGIN_MAX_RETRIES) :
    Plays s write env m (s.beginPooledFrom write left zombie)
      (retrying (flag env) BeginFailure.isTransient (s.outcomes env) left (m.attempt + 1)) := by
  induction left generalizing zombie m with
  | zero =>
    rw [beginPooledFrom, ← hm, retrying]
    exact plays_pooledAttempt hmode zombie fun _ ↦ .none
  | succ left ih =>
    have hattempt : BEGIN_MAX_RETRIES - left = m.attempt + 1 := by omega
    rw [beginPooledFrom, hattempt, retrying]
    refine plays_pooledAttempt hmode zombie fun zombie ↦ .some ?_
    exact ih zombie { m with attempt := m.attempt + 1 } (by dsimp only; omega)

theorem plays_beginDirectFrom (hmode : s.mode = .direct) (left : ℕ) (m : Meter)
    (hm : m.attempt + left = MAX_RETRIES) :
    Plays s write env m (s.beginDirectFrom write left)
      (retrying (flag env) BeginFailure.isTransient (s.outcomes env) left (m.attempt + 1)) := by
  induction left generalizing m with
  | zero =>
    rw [beginDirectFrom, ← hm, retrying]
    exact plays_directAttempt hmode .none
  | succ left ih =>
    have hattempt : MAX_RETRIES - left = m.attempt + 1 := by omega
    rw [beginDirectFrom, hattempt, retrying]
    refine plays_directAttempt hmode (.some ?_)
    exact ih { m with attempt := m.attempt + 1 } (by dsimp only; omega)

/-- **The loop is a row of three attempts**, in either mode. -/
theorem plays_beginLoop (s : PgStore) (write : Bool) (env : ℕ → StoreAnswers)
    (txStarted txActive : UInt64) :
    Plays s write env ⟨0, txStarted, txActive⟩ (s.beginLoop write) (s.verdict env) := by
  rw [beginLoop]
  cases hmode : s.mode with
  | pooled => exact plays_beginPooledFrom hmode 2 false _ rfl
  | direct => exact plays_beginDirectFrom hmode 2 _ rfl

/-! ## What the loops promise -/

/-- Attempt `j` fails and may be followed by another. -/
def FailsTransiently (s : PgStore) (env : ℕ → StoreAnswers) (j : ℕ) : Prop :=
  ∃ f, s.outcomes env j = .error f ∧ f.isTransient = true

/-- The attempts and the counters of a loop that returns `r`, from the state `m` to `m'`. -/
structure Retries (s : PgStore) (env : ℕ → StoreAnswers) (m m' : Meter)
    (r : Result PgTransaction) : Prop where
  attempt_le : m'.attempt ≤ 3
  ok_iff : r.isOk = true ↔ ∃ i, 1 ≤ i ∧ i ≤ 3 ∧ s.outcomes env i = .ok () ∧
    (∀ j, 1 ≤ j → j < i → s.FailsTransiently env j) ∧ ∀ j, 1 ≤ j → j ≤ i → flag env j = false
  again : ∀ j, 1 ≤ j → j < m'.attempt → s.FailsTransiently env j
  timeout : ∀ j f, s.outcomes env j = .error f → f.stage = .sessionTimeout →
    f.isTransient = true
  txStarted_eq : m'.txStarted = m.txStarted + if r.isOk then 1 else 0
  txActive_eq : m'.txActive = m.txActive + if r.isOk then 1 else 0

theorem leadsTo_iff {i : ℕ} (hi : 1 ≤ i) :
    LeadsTo (flag env) BeginFailure.isTransient (s.outcomes env) 1 i ∧ flag env i = false ↔
      (∀ j, 1 ≤ j → j < i → s.FailsTransiently env j) ∧
        ∀ j, 1 ≤ j → j ≤ i → flag env j = false := by
  constructor
  · rintro ⟨h, hflag⟩
    refine ⟨fun j hj hji ↦ (h.repeats j hj hji).fails, fun j hj hji ↦ ?_⟩
    rcases Nat.eq_or_lt_of_le hji with rfl | hlt
    · exact hflag
    · exact (h.repeats j hj hlt).clear
  · rintro ⟨hfails, hflag⟩
    refine ⟨⟨hi, fun j hj hji ↦ ?_⟩, hflag i hi le_rfl⟩
    exact ⟨hflag j hj hji.le, hfails j hj hji⟩

theorem stage_of_pooledOutcome {r : StoreAnswers} {f : BeginFailure}
    (h : s.pooledOutcome r = .error f) : f.stage = .pooled := by
  rw [pooledOutcome] at h
  cases hr : s.beginWithOutcome r with
  | ok _ => simp [hr] at h
  | error e =>
    simp only [hr, Except.error.injEq] at h
    rw [← h]

theorem isTransient_of_directOutcome {r : StoreAnswers} {f : BeginFailure}
    (h : s.directOutcome r = .error f) (hf : f.stage = .sessionTimeout) :
    f.isTransient = true := by
  rw [directOutcome] at h
  split at h
  · simp only [Except.error.injEq] at h
    simp [← h] at hf
  · split at h
    · simp only [Except.error.injEq] at h
      rw [← h]
      rfl
    · simp only [Except.error.injEq] at h
      simp [← h] at hf
    · split at h
      · simp only [Except.error.injEq] at h
        simp [← h] at hf
      · simp at h

theorem isTransient_of_sessionTimeout {r : StoreAnswers} {f : BeginFailure}
    (h : s.outcome r = .error f) (hf : f.stage = .sessionTimeout) : f.isTransient = true := by
  rw [outcome] at h
  cases hmode : s.mode with
  | pooled =>
    simp only [hmode] at h
    simp [stage_of_pooledOutcome h] at hf
  | direct =>
    simp only [hmode] at h
    exact isTransient_of_directOutcome h hf

theorem isOk_returned (v : Verdict BeginFailure Unit) :
    (s.returned write v).isOk = true ↔ ∃ i, v = .success i () := by
  cases v with
  | success i _ => exact iff_of_true rfl ⟨i, rfl⟩
  | gaveUp i f => exact iff_of_false Bool.false_ne_true fun ⟨_, h⟩ ↦ nomatch h
  | barred i => exact iff_of_false Bool.false_ne_true fun ⟨_, h⟩ ↦ nomatch h

/-- **The retry loops**, whatever comes of the attempts and whenever the flag is set. -/
theorem beginLoop_retries (s : PgStore) (write : Bool) (env : ℕ → StoreAnswers)
    (txStarted txActive : UInt64) :
    Retries s env ⟨0, txStarted, txActive⟩
      ((s.beginLoop write).eval (Meter.answer env) ⟨0, txStarted, txActive⟩).2
      ((s.beginLoop write).eval (Meter.answer env) ⟨0, txStarted, txActive⟩).1 := by
  rw [plays_beginLoop s write env txStarted txActive]
  dsimp only
  -- the meter counts the attempts turned to, also one that finds the flag set
  have hlast (m : Meter) (v) : (m.after v).attempt = v.last := by cases v <;> rfl
  obtain ⟨hleads, hle⟩ := leadsTo_last (flag env) BeginFailure.isTransient (s.outcomes env) 2 1
  refine ⟨?_, ?_, ?_, fun j f ↦ isTransient_of_sessionTimeout, ?_, ?_⟩
  · rw [hlast]
    exact hle
  · rw [isOk_returned]
    refine exists_congr fun i ↦ ?_
    rw [verdict, retrying_eq_success_iff]
    constructor
    · rintro ⟨hi, hle, hflag, ho⟩
      exact ⟨hi.le, hle, ho, (leadsTo_iff hi.le).mp ⟨hi, hflag⟩⟩
    · rintro ⟨hi, hle, ho, hpath⟩
      obtain ⟨hleads, hflag⟩ := (leadsTo_iff hi).mpr hpath
      exact ⟨hleads, hle, hflag, ho⟩
  · intro j hj hjlast
    rw [hlast] at hjlast
    exact (hleads.repeats j hj hjlast).fails
  · cases s.verdict env with
    | success => rfl
    | gaveUp | barred => exact (UInt64.add_zero _).symm
  · cases s.verdict env with
    | success => rfl
    | gaveUp | barred => exact (UInt64.add_zero _).symm

end PgStore

/-! ## The class of what is reported -/

/-- To an engine, errors of one class. -/
structure PgStoreError.SameClass (e e' : PgStoreError) : Prop where
  isTransient_eq : e.isTransient = e'.isTransient
  sameVariant : (KvsError.ofPgStoreError e).sameVariant (KvsError.ofPgStoreError e') = true

/-- An error of the class of those that are only words: not worth a retry, and an error of the
transaction. -/
structure PgStoreError.IsPlain (e : PgStoreError) : Prop where
  permanent : e.isTransient = false
  transaction : ∃ msg, KvsError.ofPgStoreError e = .transaction msg

theorem KvsError.sameVariant_transaction_iff {msg : String} {e : KvsError} :
    (KvsError.transaction msg).sameVariant e = true ↔ ∃ msg', e = .transaction msg' := by
  cases e <;> simp [sameVariant]

theorem PgStoreError.SameClass.refl (e : PgStoreError) : e.SameClass e :=
  ⟨rfl, KvsError.sameVariant_self _⟩

theorem PgStoreError.other_sameClass_iff {msg : String} {e : PgStoreError} :
    (other msg).SameClass e ↔ e.IsPlain := by
  constructor
  · intro h
    exact ⟨h.isTransient_eq.symm, KvsError.sameVariant_transaction_iff.mp h.sameVariant⟩
  · intro h
    exact ⟨h.permanent.symm, KvsError.sameVariant_transaction_iff.mpr h.transaction⟩

namespace PgStore

/-- What is reported in words is of no other class. -/
theorem gaveUp_sameClass_iff {what : String} {k : ℕ} {e : PgStoreError} (hk : 1 ≤ k) :
    (gaveUp what k e).SameClass e ↔ k = 1 ∨ e.IsPlain := by
  rw [gaveUp]
  split_ifs with hlt
  · rw [PgStoreError.other_sameClass_iff]
    exact (or_iff_right (by omega)).symm
  · exact iff_of_true (.refl e) (Or.inl (by omega))

theorem report_sameClass_iff {k : ℕ} {f : BeginFailure} (hk : 1 ≤ k) :
    (f.report k).SameClass f.error ↔
      k = 1 ∨ f.stage = .sessionTimeout ∨ f.error.IsPlain := by
  rw [BeginFailure.report]
  cases f.stage with
  | sessionTimeout => exact iff_of_true (.refl _) (Or.inr (Or.inl rfl))
  | pooled | connect | session | begin => simpa using gaveUp_sameClass_iff hk

/-- The loop gives up because attempt `k` has failed with `f`: the attempts before it have failed
transiently, and it is the last there is or has not. -/
structure GivesUp (s : PgStore) (env : ℕ → StoreAnswers) (k : ℕ) (f : BeginFailure) : Prop where
  pos : 1 ≤ k
  le : k ≤ 3
  clear : ∀ j, 1 ≤ j → j ≤ k → flag env j = false
  before : ∀ j, 1 ≤ j → j < k → s.FailsTransiently env j
  fails : s.outcomes env k = .error f
  last : k = 3 ∨ f.isTransient = false

theorem verdict_of_givesUp {s : PgStore} {env : ℕ → StoreAnswers} {k : ℕ} {f : BeginFailure}
    (h : GivesUp s env k f) : s.verdict env = .gaveUp k f := by
  obtain ⟨hleads, hflag⟩ := (leadsTo_iff h.pos).mpr ⟨h.before, h.clear⟩
  exact retrying_eq_gaveUp_iff.mpr ⟨hleads, h.le, hflag, h.fails, h.last⟩

/-- **Retrying keeps the class of the last failure** exactly if it was not retried, was the one
that is passed on as it is, or has no class to lose. -/
theorem beginLoop_sameClass_iff (s : PgStore) (write : Bool) (env : ℕ → StoreAnswers)
    (txStarted txActive : UInt64) {k : ℕ} {f : BeginFailure} (h : GivesUp s env k f) :
    (∃ e, ((s.beginLoop write).eval (Meter.answer env) ⟨0, txStarted, txActive⟩).1 = .error e ∧
      e.SameClass f.error) ↔
    k = 1 ∨ f.stage = .sessionTimeout ∨ f.error.IsPlain := by
  rw [plays_beginLoop s write env txStarted txActive, verdict_of_givesUp h,
    ← report_sameClass_iff h.pos]
  simp [returned]

/-- A server that accepts connections and is heard of no more, and a pool that has none to give. -/
def stalled : StoreAnswers
  | .loadShuttingDown | .takeHeartbeat | .awaitPool | .deadlinePassed => false
  | .acquire => .error .poolTimedOut
  | .execute _ => .ok ()
  | .connect => some (.ok ())
  | .executeTimed _ => none
  | .poolSize => (10, 0)
  | .loadActive => 10
  | .returnConn | .sleep _ | .addStarted | .addActive | .storeShuttingDown | .cancelHeartbeat
  | .joinHeartbeat | .closePool => ()

/-- Session settings that time out three times. -/
theorem beginLoop_sessionTimeout : ∃ e, (((withDefaults .direct).beginLoop true).eval
      (Meter.answer fun _ ↦ stalled) ⟨0, 0, 0⟩).1 = .error e ∧
    e.SameClass (.connectTimeout (.fromSecs 30)) := by
  refine (beginLoop_sameClass_iff (withDefaults .direct) true (fun _ ↦ stalled) 0 0
    (k := 3) (f := ⟨.sessionTimeout, .connectTimeout (.fromSecs 30)⟩) ?_).mpr (Or.inr (Or.inl rfl))
  exact ⟨by decide, le_rfl, fun _ _ _ ↦ rfl, fun _ _ _ ↦ ⟨_, rfl, rfl⟩, rfl, Or.inl rfl⟩

/-- A pool that times out three times. -/
theorem not_beginLoop_sameClass : ¬∀ (s : PgStore) write env txStarted txActive k f,
    GivesUp s env k f →
    ∃ e, ((s.beginLoop write).eval (Meter.answer env) ⟨0, txStarted, txActive⟩).1 = .error e ∧
      e.SameClass f.error := by
  intro hlaw
  obtain ⟨e, he, hclass⟩ := hlaw (withDefaults .pooled) true (fun _ ↦ stalled) 0 0 3
    ⟨.pooled, .poolTimeout⟩
    ⟨by decide, le_rfl, fun _ _ _ ↦ rfl, fun _ _ _ ↦ ⟨_, rfl, rfl⟩, rfl, Or.inl rfl⟩
  rw [plays_beginLoop] at he
  obtain rfl : BeginFailure.report 3 ⟨.pooled, .poolTimeout⟩ = e := Except.error.inj he
  exact absurd hclass.isTransient_eq (by decide)

end PgStore

end SurrealPg
