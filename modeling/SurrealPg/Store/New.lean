import SurrealPg.Config.Independence
import SurrealPg.Schema.Start
import SurrealPg.Store.Heartbeat
import SurrealPg.Store.Service

/-!
# `PgStore::new`

Creating a store: the configuration is loaded, the heartbeat is spawned in direct mode, the pool is
opened in pooled mode, and with `auto_create_table` the table is created, tuned and counted. All of
this may fail, an assertion of the text generation may panic, and the future may be dropped at any
await. From the spawn on a guard cancels the heartbeat in each of these cases; only a store that is
returned keeps it.

The mode decides what has to be reached first, the pool or two connections of its own. Apart from
that the same statements are sent to the same end, whatever the server makes of them.
-/

namespace SurrealPg

open Semantics Postgres

/-! ## What is made before anything is sent -/

namespace PersistentStatements

/-- Resolve to a concrete `bool` after optional auto-detection. -/
def resolve (p : PersistentStatements) (detected : Bool) : Bool :=
  match p with
  | .auto => detected
  | .enabled => true
  | .disabled => false

end PersistentStatements

/-- Default direct-mode connect timeout when not specified. -/
def DEFAULT_CONNECT_TIMEOUT : Duration := .fromSecs 30

namespace PgConfig

/-- The timeout of a direct-mode connection; pooled mode has a placeholder. -/
def directTimeout (c : PgConfig) (tune : TuneConfig) : Duration :=
  if c.pooler then
    c.connectTimeout.getD ⟨max tune.poolAcquireTimeout.nanos DEFAULT_CONNECT_TIMEOUT.nanos⟩
  else ⟨0⟩

/-- Whether statements are prepared under a name. Behind a pooler they never are. -/
def persistent (c : PgConfig) : Bool :=
  if c.pooler then false
  else match c.persistentStatements with
    | .auto => true
    | p => p.resolve true

def mode (c : PgConfig) : ConnectionMode := if c.pooler then .direct else .pooled

end PgConfig

/-- What `new` has when it starts to talk to the server. -/
structure Setup where
  config : PgConfig
  tune : TuneConfig
  sessionSql : RawSql
  session_eq : tune.session.sessionSql = some sessionSql

namespace Setup

/-- What `begin` and `shutdown` read of the store. -/
def store (x : Setup) : PgStore where
  mode := x.config.mode
  isolationLevel := x.config.isolationLevel
  tune := x.tune.session
  sessionSql := x.sessionSql
  session_eq := x.session_eq
  connectTimeout := x.config.directTimeout x.tune

end Setup

/-- A store that has been created. -/
structure Created where
  setup : Setup
  persistent : Bool
  poolMax : ℕ

/-- Why `new` does not return a store. -/
inductive Failure
  | error (e : PgStoreError)
  | panicked

/-- A part of `new`. -/
abbrev Part := Service (Except Failure Unit)

namespace Setup

open Service

/-- One part after the other, where the first succeeds. -/
def andThen (d k : Part) : Part := do
  match ← d with
  | .error e => return .error e
  | .ok _ => k

/-- A part that fails lets go of its connection. -/
def failed (held : StoreNote) (e : PgStoreError) : Part := do
  release held
  return .error (.error e)

variable (x : Setup)

/-- In direct mode the heartbeat is spawned. -/
def spawn : Service Unit :=
  if x.config.pooler then .ask .spawnHeartbeat none .done else pure ()

/-- In pooled mode the pool is opened. -/
def openPool : Part :=
  if x.config.pooler then pure (.ok ())
  else .ask .connectPool (some .unconnected) fun
    | none => return .error .panicked
    | some (.error e) => failed .unconnected (.fromSqlx none e)
    | some (.ok _) => return .ok ()

/-- The table is created and tuned. Tuning that is refused is only warned about. -/
def createTable (create tuning : List (Ddl ParamValue)) : Part :=
  match x.config.mode with
  | .pooled => do
    match ← executeOnPool (.createTable create) with
    | .error e => failed .unconnected (.fromSqlx none e)
    | .ok _ => do
      let _ ← executeOnPool (.tuneTable tuning)
      return .ok ()
  | .direct => do
    match ← ofStore (PgStore.connectDirectWithSession (x.config.directTimeout x.tune)
        x.tune.session.keepaliveSql x.sessionSql) with
    | .error e => failed .unconnected e
    | .ok _ => do
      match ← Service.execute (.createTable create) with
      | .error e => failed .direct (.fromSqlx none e)
      | .ok _ => do
        let _ ← Service.execute (.tuneTable tuning)
        closeConn
        return .ok ()

/-- The count is compared with the configuration. -/
def verify (held : StoreNote) : Except SqlxError ℤ → Part
  | .error e => failed held (.fromSqlx none e)
  | .ok actual =>
    match verifyPartitionCount x.config.tableName x.tune.hashPartitions actual with
    | .error e => failed held e
    | .ok _ => do
      release held
      return .ok ()

/-- The partitions are counted. -/
def verifyPartitions : Part :=
  match x.config.mode with
  | .pooled => .ask (.fetchCountOnPool x.config.tableName) (some .pooled) (x.verify .unconnected)
  | .direct => do
    match ← ofStore (PgStore.connectDirect (x.config.directTimeout x.tune)) with
    | .error e => failed .unconnected e
    | .ok _ => .ask (.fetchCount x.config.tableName) (some .direct) (x.verify .direct)

/-- An assertion of the text generation. -/
def text {α : Type} (made : Option α) (k : α → Part) : Part :=
  match made with
  | none => pure (.error .panicked)
  | some a => k a

/-- The block under `auto_create_table`. -/
def initTable : Part :=
  if x.config.autoCreateTable then
    text (x.tune.createTableSql x.config.tableName) fun create ↦
      text (x.tune.tuneTableSql x.config.tableName) fun tuning ↦
        andThen (x.createTable create tuning) <|
          text (TuneConfig.partitionCountSql x.config.tableName) fun _ ↦ x.verifyPartitions
  else pure (.ok ())

/-- The destructor of the guard; it is disarmed where a store is returned. -/
def dropGuard (armed : Bool) : Service Unit :=
  if armed && x.config.pooler then .ask .cancelHeartbeat none .done else pure ()

def created : Created :=
  ⟨x, x.config.persistent, poolMax x.config x.tune⟩

/-- From the spawn on. -/
def create : Service (Except Failure Created) := do
  x.spawn
  match ← andThen x.openPool x.initTable with
  | .error e => do
    x.dropGuard true
    return .error e
  | .ok _ => do
    x.dropGuard false
    return .ok x.created

end Setup

namespace PgStore

/-- Create a store from a PostgreSQL connection URL, in the environment `env`. -/
def new (f : F64Text) (parse : Text → Except String Unit) (env : Env) (url : Text) :
    Service (Except Failure Created) :=
  match accepted f parse env url with
  | .error e => pure (.error (.error e))
  | .ok (config, tune) =>
    match h : tune.session.sessionSql with
    | none => pure (.error .panicked)
    | some sessionSql => (Setup.mk config tune sessionSql h).create

end PgStore

/-! ## The connect timeout -/

section

variable {f : F64Text} {parse : Text → Except String Unit} {env : Env} {url : Text}
  {config : PgConfig} {tune : TuneConfig}

/-- A timeout that is given is not zero. -/
def PgConfig.TimeoutGiven (d : Option Duration) : Prop := ∀ t, d = some t → t.isZero = false

theorem isZero_of_seconds {value : Text} {d : Duration} (h : PgConfig.seconds value = some d) :
    d.isZero = false := by
  rw [PgConfig.seconds] at h
  split at h
  · cases h
  · cases h
  · next secs hne hsecs =>
    obtain rfl := Option.some.inj h
    rw [Duration.isZero, Duration.fromSecs, beq_eq_false_iff_ne]
    exact Nat.mul_ne_zero hne (by decide)

theorem timeoutGiven_overwrite {old : Option Duration} (h : PgConfig.TimeoutGiven old)
    (value : Text) : PgConfig.TimeoutGiven (Param.connectTimeout.overwrite old value) := by
  intro t ht
  rw [Param.overwrite, Param.accept] at ht
  cases hsecs : PgConfig.seconds value with
  | none =>
    rw [hsecs] at ht
    exact h t ht
  | some d =>
    rw [hsecs] at ht
    obtain rfl := Option.some.inj ht
    exact isZero_of_seconds hsecs

theorem timeoutGiven_of_mergeUrlParams {c : PgConfig}
    (h : PgConfig.mergeUrlParams default url = .ok c) :
    PgConfig.TimeoutGiven c.connectTimeout := by
  have hdefault : PgConfig.TimeoutGiven (default : PgConfig).connectTimeout := nofun
  rw [PgConfig.mergeUrlParams] at h
  split at h
  · rw [← Except.ok.inj h]
    exact hdefault
  · have hfield : c.connectTimeout = _ := PgConfig.field_of_mergePairs h .connectTimeout
    rw [hfield]
    exact List.foldlRecOn _ _ hdefault fun old hold value _ ↦ timeoutGiven_overwrite hold value

theorem timeoutGiven_of_accepted (h : accepted f parse env url = .ok (config, tune)) :
    PgConfig.TimeoutGiven config.connectTimeout := by
  obtain ⟨hload, -⟩ := loadConfig_of_accepted h
  rw [loadConfig] at hload
  cases hurl : PgConfig.mergeUrlParams default url with
  | error e => simp [hurl] at hload
  | ok c =>
    simp only [hurl] at hload
    split at hload
    · simp at hload
    · have henv : (c.mergeEnv env).connectTimeout = c.connectTimeout := by
        rw [PgConfig.mergeEnv]
        split <;> rfl
      have hcap (c : PgConfig) : c.capMinConnections.connectTimeout = c.connectTimeout := by
        rw [PgConfig.capMinConnections]
        split
        · split_ifs <;> rfl
        · rfl
      rw [← Except.ok.inj hload, hcap, henv]
      exact timeoutGiven_of_mergeUrlParams hurl

/-- **A direct-mode timeout is never zero**, so `connect_direct` never refuses it. -/
theorem isZero_directTimeout (h : accepted f parse env url = .ok (config, tune))
    (hpooler : config.pooler = true) : (config.directTimeout tune).isZero = false := by
  have hgiven := timeoutGiven_of_accepted h
  rw [PgConfig.directTimeout, if_pos hpooler]
  cases htimeout : config.connectTimeout with
  | some d => exact hgiven d htimeout
  | none =>
    have hmax : DEFAULT_CONNECT_TIMEOUT.nanos ≤
        max tune.poolAcquireTimeout.nanos DEFAULT_CONNECT_TIMEOUT.nanos := le_max_right _ _
    rw [Option.getD_none, Duration.isZero, beq_eq_false_iff_ne]
    exact (Nat.lt_of_lt_of_le (by decide) hmax).ne'

end

/-! ## What a call of `new` holds -/

/-- The heartbeat that a call of `new` has spawned and cancelled, and the one-off connections it has
made. Those of the pool are the pool's. -/
structure Holdings where
  spawned : Bool
  cancelled : Bool
  conns : ℕ
  deriving DecidableEq

namespace Holdings

def empty : Holdings := ⟨false, false, 0⟩

/-- What an answer does to them. -/
def after (h : Holdings) : (q : ServiceReq) → q.Answer → Holdings
  | .spawnHeartbeat, _ => { h with spawned := true }
  | .cancelHeartbeat, _ => { h with cancelled := true }
  | .store .connect, some (.ok _) => { h with conns := h.conns + 1 }
  | .closeConn, _ => { h with conns := h.conns - 1 }
  | _, _ => h

/-- The future is dropped: first the connection, if there is one, then the guard, which is armed at
every await. -/
def drop (h : Holdings) (u : StoreNote) : Holdings where
  spawned := h.spawned
  cancelled := h.cancelled || h.spawned
  conns := match u with
    | .direct => h.conns - 1
    | .unconnected | .pooled => h.conns

/-- Nothing is lost, whatever was spawned. -/
def Released (h : Holdings) : Prop := h.conns = 0 ∧ h.cancelled = h.spawned

/-- At work with `n` connections. -/
def Working (h : Holdings) (n : ℕ) : Prop := h.cancelled = false ∧ h.conns = n

/-- What `new` asks for, with what it holds. -/
def may (h : Holdings) (q : ServiceReq) (u : Option StoreNote) : Prop :=
  match q with
  | .spawnHeartbeat => h = empty ∧ u = none
  | .cancelHeartbeat => h.Working 0 ∧ h.spawned = true ∧ u = none
  | .store .connect | .connectPool => h.Working 0 ∧ u = some .unconnected
  | .store (.executeTimed _) | .execute _ | .fetchCount _ => h.Working 1 ∧ u = some .direct
  | .closeConn => h.Working 1 ∧ u = none
  | .executeOnPool _ | .fetchCountOnPool _ => h.Working 0 ∧ u = some .pooled
  | _ => False

def next (h : Holdings) (q : ServiceReq) (r : q.Answer) : Option Holdings := some (h.after q r)

/-- What is held when `new` returns. -/
def ends (h : Holdings) : Except Failure Created → Prop
  | .ok o => h = ⟨o.setup.config.pooler, false, 0⟩
  | .error _ => h.Released

end Holdings

namespace Setup

open Holdings

variable {x : Setup} {spawned : Bool}

/-- A part that lets go of everything it has come by. -/
def Clean (spawned : Bool) (d : Part) : Prop :=
  d.Follows may next (fun h _ ↦ h = ⟨spawned, false, 0⟩) ⟨spawned, false, 0⟩

theorem clean_pure (r : Except Failure Unit) : Clean spawned (pure r) := rfl

theorem clean_andThen {d k : Part} (hd : Clean spawned d) (hk : Clean spawned k) :
    Clean spawned (andThen d k) := by
  refine Dialogue.Follows.bind hd fun h r hh ↦ ?_
  subst hh
  cases r with
  | error e => exact clean_pure _
  | ok _ => exact hk

theorem follows_failed (e : PgStoreError) :
    (failed .direct e).Follows may next (fun h _ ↦ h = ⟨spawned, false, 0⟩)
      ⟨spawned, false, 1⟩ := by
  refine ⟨⟨⟨rfl, rfl⟩, rfl⟩, fun _ h hh ↦ ?_⟩
  obtain rfl := Option.some.inj hh
  rfl

theorem clean_openPool : Clean spawned x.openPool := by
  rw [openPool]
  split_ifs
  · exact clean_pure _
  · refine ⟨⟨⟨rfl, rfl⟩, rfl⟩, fun r h hh ↦ ?_⟩
    obtain rfl := Option.some.inj hh
    rcases r with _ | e | _ <;> rfl

theorem follows_connectDirect (t : Duration) :
    (Service.ofStore (PgStore.connectDirect t)).Follows may next
      (fun h r ↦ h = ⟨spawned, false, if r.isOk then 1 else 0⟩) ⟨spawned, false, 0⟩ := by
  rw [PgStore.connectDirect]
  split_ifs
  · rfl
  · refine ⟨⟨⟨rfl, rfl⟩, rfl⟩, fun r h hh ↦ ?_⟩
    obtain rfl := Option.some.inj hh
    rcases r with _ | e | u <;> rfl

theorem follows_connectDirectWithSession (t : Duration) (keepaliveSql sessionSql : RawSql) :
    (Service.ofStore (PgStore.connectDirectWithSession t keepaliveSql sessionSql)).Follows may next
      (fun h r ↦ h = ⟨spawned, false, if r.isOk then 1 else 0⟩) ⟨spawned, false, 0⟩ := by
  rw [PgStore.connectDirectWithSession, PgStore.connectDirect]
  split_ifs
  · rfl
  · refine ⟨⟨⟨rfl, rfl⟩, rfl⟩, fun r h hh ↦ ?_⟩
    obtain rfl := Option.some.inj hh
    rcases r with _ | e | u
    · rfl
    · rfl
    -- the settings, whatever becomes of them
    · refine ⟨⟨⟨rfl, rfl⟩, rfl⟩, fun _ h hh ↦ ?_⟩
      obtain rfl := Option.some.inj hh
      refine ⟨⟨⟨rfl, rfl⟩, rfl⟩, fun _ h hh ↦ ?_⟩
      obtain rfl := Option.some.inj hh
      rfl

theorem follows_closed (r : Except Failure Unit) :
    (do Service.closeConn; return r : Part).Follows may next (fun h _ ↦ h = ⟨spawned, false, 0⟩)
      ⟨spawned, false, 1⟩ := by
  refine ⟨⟨⟨rfl, rfl⟩, rfl⟩, fun _ h hh ↦ ?_⟩
  obtain rfl := Option.some.inj hh
  rfl

theorem clean_createTable (create tuning : List (Ddl ParamValue)) :
    Clean spawned (x.createTable create tuning) := by
  rw [createTable]
  cases x.config.mode with
  | pooled =>
    refine ⟨⟨⟨rfl, rfl⟩, rfl⟩, fun r h hh ↦ ?_⟩
    obtain rfl := Option.some.inj hh
    cases r with
    | error e => exact clean_pure _
    | ok _ =>
      refine ⟨⟨⟨rfl, rfl⟩, rfl⟩, fun r h hh ↦ ?_⟩
      obtain rfl := Option.some.inj hh
      rfl
  | direct =>
    refine (follows_connectDirectWithSession _ _ _).bind fun h r hh ↦ ?_
    subst hh
    cases r with
    | error e => exact clean_pure _
    | ok _ =>
      refine ⟨⟨⟨rfl, rfl⟩, rfl⟩, fun r h hh ↦ ?_⟩
      obtain rfl := Option.some.inj hh
      cases r with
      | error e => exact follows_failed _
      | ok _ =>
        refine ⟨⟨⟨rfl, rfl⟩, rfl⟩, fun r h hh ↦ ?_⟩
        obtain rfl := Option.some.inj hh
        exact follows_closed _

theorem clean_verifyPartitions : Clean spawned x.verifyPartitions := by
  rw [verifyPartitions]
  cases x.config.mode with
  | pooled =>
    refine ⟨⟨⟨rfl, rfl⟩, rfl⟩, fun r h hh ↦ ?_⟩
    obtain rfl := Option.some.inj hh
    cases r with
    | error e => exact clean_pure _
    | ok n =>
      rw [verify]
      cases verifyPartitionCount x.config.tableName x.tune.hashPartitions n with
      | error e => exact clean_pure _
      | ok _ => exact clean_pure _
  | direct =>
    refine (follows_connectDirect _).bind fun h r hh ↦ ?_
    subst hh
    cases r with
    | error e => exact clean_pure _
    | ok _ =>
      refine ⟨⟨⟨rfl, rfl⟩, rfl⟩, fun r h hh ↦ ?_⟩
      obtain rfl := Option.some.inj hh
      cases r with
      | error e => exact follows_failed _
      | ok n =>
        rw [verify]
        cases verifyPartitionCount x.config.tableName x.tune.hashPartitions n with
        | error e => exact follows_failed _
        | ok _ => exact follows_closed _

theorem clean_text {α : Type} {made : Option α} {k : α → Part} (hk : ∀ a, Clean spawned (k a)) :
    Clean spawned (text made k) := by
  cases made with
  | none => exact clean_pure _
  | some a => exact hk a

theorem clean_initTable : Clean spawned x.initTable := by
  rw [initTable]
  split_ifs
  · refine clean_text fun create ↦ clean_text fun tuning ↦ ?_
    exact clean_andThen (clean_createTable _ _) (clean_text fun _ ↦ clean_verifyPartitions)
  · exact clean_pure _

/-- Where no store is returned, the guard cancels what was spawned. -/
theorem follows_dropGuard (e : Failure) :
    (do x.dropGuard true; return .error e : Service (Except Failure Created)).Follows may next
      Holdings.ends ⟨x.config.pooler, false, 0⟩ := by
  rw [dropGuard, Bool.true_and]
  cases x.config.pooler with
  | false => exact ⟨rfl, rfl⟩
  | true =>
    refine ⟨⟨⟨rfl, rfl⟩, rfl, rfl⟩, fun _ h hh ↦ ?_⟩
    obtain rfl := Option.some.inj hh
    exact ⟨rfl, rfl⟩

theorem follows_spawn : x.spawn.Follows may next
    (fun h _ ↦ h = ⟨x.config.pooler, false, 0⟩) Holdings.empty := by
  rw [spawn]
  cases x.config.pooler with
  | false => rfl
  | true =>
    refine ⟨⟨rfl, rfl⟩, fun _ h hh ↦ ?_⟩
    obtain rfl := Option.some.inj hh
    rfl

/-- **From the spawn on**, everything is let go of unless a store is returned. -/
theorem follows_create (x : Setup) :
    x.create.Follows may next Holdings.ends Holdings.empty := by
  have hparts : Clean x.config.pooler (andThen x.openPool x.initTable) :=
    clean_andThen clean_openPool clean_initTable
  refine follows_spawn.bind fun h _ hh ↦ ?_
  subst hh
  refine Dialogue.Follows.bind hparts fun h r hh ↦ ?_
  subst hh
  cases r with
  | ok _ => rfl
  | error e => exact follows_dropGuard e

end Setup

theorem follows_new (f : F64Text) (parse : Text → Except String Unit) (env : Env) (url : Text) :
    (PgStore.new f parse env url).Follows Holdings.may Holdings.next Holdings.ends
      Holdings.empty := by
  rw [PgStore.new]
  split
  · exact ⟨rfl, rfl⟩
  · split
    · exact ⟨rfl, rfl⟩
    · exact Setup.follows_create _

/-! ## Calls among one another -/

section Calls

variable {ι : Type} [DecidableEq ι]

/-- What a call of `new` is given. -/
abbrev NewCall := Env × Text

/-- Every call has holdings of its own, whatever it is answered. -/
def newServer : Server ι ServiceReq ServiceReq.Answer StoreNote (ι → Holdings) where
  answer i s q r s' := s' = Function.update s i ((s i).after q r)
  unwind i s u s' := s' = Function.update s i ((s i).drop u)

abbrev NewPool (ι : Type) :=
  Pool ι NewCall ServiceReq ServiceReq.Answer StoreNote (Except Failure Created) (ι → Holdings)

def newTypestate : Typestate NewCall ServiceReq ServiceReq.Answer StoreNote
    (Except Failure Created) Holdings where
  start _ := Holdings.empty
  may _ := Holdings.may
  next := Holdings.next
  ends _ := Holdings.ends

/-- Each call holds what its phase says. -/
def Held (s : ι → Holdings) (ph : Phases ι NewCall Holdings) : Prop :=
  ∀ i, match ph i with
    | none => s i = Holdings.empty
    | some (.live _ h) => s i = h
    | some (.dropped _) => (s i).Released

theorem Held.update {s : ι → Holdings} {ph : Phases ι NewCall Holdings} (hs : Held s ph) {i : ι}
    {t : Task NewCall Holdings} {h : Holdings}
    (ht : match t with
      | .live _ h' => h = h'
      | .dropped _ => h.Released) :
    Held (Function.update s i h) (Function.update ph i (some t)) := by
  intro j
  by_cases hj : j = i
  · subst hj
    rw [Function.update_self, Function.update_self]
    cases t <;> exact ht
  · rw [Function.update_of_ne hj, Function.update_of_ne hj]
    exact hs j

/-- At an await a call has at most one connection of its own, and has cancelled nothing. -/
theorem Holdings.working_of_may {h : Holdings} {q : ServiceReq} {u : Option StoreNote}
    (hmay : h.may q u) : h.conns ≤ 1 ∧ h.cancelled = false := by
  rw [may.eq_def] at hmay
  split at hmay
  case h_1 =>
    obtain ⟨rfl, -⟩ := hmay
    exact ⟨Nat.zero_le _, rfl⟩
  case h_11 => exact hmay.elim
  all_goals
    obtain ⟨⟨hcancelled, hconns⟩, -⟩ := hmay
    rw [hconns]
    exact ⟨Nat.le_of_ble_eq_true rfl, hcancelled⟩

theorem Holdings.released_drop {h : Holdings} {q : ServiceReq} {u : StoreNote}
    (hmay : h.may q (some u)) : (h.drop u).Released := by
  obtain ⟨spawned, cancelled, conns⟩ := h
  rw [may.eq_def] at hmay
  split at hmay
  case h_1 | h_2 | h_8 => simp at hmay
  case h_11 => exact hmay.elim
  all_goals
    obtain ⟨⟨rfl, rfl⟩, hu⟩ := hmay
    obtain rfl := Option.some.inj hu
    exact ⟨rfl, rfl⟩

theorem held_keeps : newTypestate.Keeps (newServer (ι := ι)) fun _ s ph ↦ Held s ph where
  call := by
    intro tr s ph i c hs hi
    have hsi := hs i
    rw [hi] at hsi
    have hupdate := hs.update (i := i) (t := .live c Holdings.empty) (h := s i) hsi
    rwa [Function.update_eq_self] at hupdate
  answer := by
    rintro tr s ph i c h q u r _ hs hi hmay rfl
    have hsi := hs i
    rw [hi] at hsi
    exact ⟨_, rfl, hs.update (congrArg (Holdings.after · q r) hsi)⟩
  abandon := by
    rintro tr s ph i c h q u _ hs hi hmay rfl
    have hsi : s i = h := by
      have hsi := hs i
      rwa [hi] at hsi
    exact hs.update (hsi ▸ Holdings.released_drop hmay)

/-- What a call holds, by how far it has come. -/
def Holdings.Fits (h : Holdings) :
    Option (Task NewCall (Service (Except Failure Created))) → Prop
  | none => h = Holdings.empty
  | some (.live _ (.ask ..)) => h.conns ≤ 1 ∧ h.cancelled = false
  | some (.live _ (.done r)) => h.ends r
  | some (.dropped _) => h.Released

/-- **A call of `new` leaves nothing behind but the store it returns.** Whatever the calls are
answered, and wherever they are dropped: a call at work has one one-off connection at most and has
cancelled nothing; one that has ended has none, and the heartbeat it has spawned, if any, is
cancelled unless the store is returned, which has one exactly in direct mode. -/
theorem new_leaves_nothing (f : F64Text) (parse : Text → Except String Unit)
    {tr : List (PoolEvent ι NewCall ServiceReq ServiceReq.Answer)} {p : NewPool ι}
    (h : Run (Pool.Step newServer fun c : NewCall ↦ PgStore.new f parse c.1 c.2)
      (Pool.start fun _ ↦ Holdings.empty) tr p) (i : ι) : (p.mem i).Fits (p.task i) := by
  obtain ⟨ph, hheld, hfollows⟩ :=
    held_keeps.run (fun c ↦ follows_new f parse c.1 c.2) (fun _ ↦ rfl) h
  have hi := hheld i
  have hfi := hfollows i
  match ht : p.task i with
  | none =>
    rw [ht] at hfi
    rw [hfi] at hi
    exact hi
  | some (.dropped c) =>
    rw [ht] at hfi
    rw [hfi] at hi
    exact hi
  | some (.live c (.done r)) =>
    rw [ht] at hfi
    obtain ⟨φ, hφ, hends⟩ := hfi
    rw [hφ] at hi
    rw [hi]
    exact hends
  | some (.live c (.ask q u next)) =>
    rw [ht] at hfi
    obtain ⟨φ, hφ, hmay, -⟩ := hfi
    rw [hφ] at hi
    rw [hi]
    exact Holdings.working_of_may hmay

/-- What becomes of what the calls hold when call `i` is answered by `A`. -/
def answered (A : PgStore.ServiceAnswers) (i : ι) (s : ι → Holdings) (q : ServiceReq) :
    q.Answer × (ι → Holdings) :=
  (A q, Function.update s i ((s i).after q (A q)))

theorem run_answered {code : NewCall → Service (Except Failure Created)}
    (A : PgStore.ServiceAnswers) {d : Service (Except Failure Created)} {p₀ p : NewPool ι} {i : ι}
    {c : NewCall} {tr : List (PoolEvent ι NewCall ServiceReq ServiceReq.Answer)}
    (h : Run (Pool.Step newServer code) p₀ tr p) (hi : p.task i = some (.live c d)) :
    ∃ tr', Run (Pool.Step newServer code) p₀ tr'
      (p.advance i (.live c (.done (d.eval (answered A i) p.mem).1))
        (d.eval (answered A i) p.mem).2) := by
  induction d generalizing p tr with
  | done r =>
    refine ⟨tr, ?_⟩
    rw [Dialogue.eval_done, Pool.advance, ← hi, Function.update_eq_self]
    exact h
  | ask q u next ih =>
    obtain ⟨tr', h'⟩ := ih (A q) (h.answered i q (A q) (answered A i p.mem q).2 hi rfl)
      (Pool.advance_task_self p i _ _)
    rw [Pool.advance_advance] at h'
    exact ⟨tr', h'⟩

/-- Two calls for a pooler whose connections are reset: the one fails over its table, and has
cancelled the heartbeat; the other has no table to create and returns a store. -/
theorem new_leaves_nothing_reset :
    ∃ (tr : List (PoolEvent ℕ NewCall ServiceReq ServiceReq.Answer)) (p : NewPool ℕ),
      Run (Pool.Step newServer fun c : NewCall ↦
        PgStore.new ⟨fun _ ↦ none, fun _ ↦ ([], 0)⟩ (fun _ ↦ .ok ()) c.1 c.2)
        (Pool.start fun _ ↦ Holdings.empty) tr p ∧
      p.mem 0 = ⟨true, true, 0⟩ ∧ p.mem 1 = ⟨true, false, 0⟩ ∧
      ∀ i, (p.mem i).Fits (p.task i) := by
  have h : Run (Pool.Step newServer fun c : NewCall ↦
      PgStore.new ⟨fun _ ↦ none, fun _ ↦ ([], 0)⟩ (fun _ ↦ .ok ()) c.1 c.2)
    (Pool.start fun _ ↦ Holdings.empty : NewPool ℕ) [] _ := .nil
  have h := h.called 0 (fun _ ↦ none, "postgres://host/db?pooler=true".toList) rfl
  have h := h.called 1
    (fun _ ↦ none, "postgres://host/db?pooler=true&auto_create_table=false".toList) rfl
  obtain ⟨_, h⟩ := run_answered PgStore.resetting h (i := 0) rfl
  obtain ⟨tr, h⟩ := run_answered PgStore.resetting h (i := 1) rfl
  refine ⟨tr, _, h, ?_, ?_, fun i ↦ new_leaves_nothing _ _ h i⟩
  · decide +kernel
  · decide +kernel

end Calls

/-! ## What it does to the table -/

section Table

/-- What a server, whose state is a `σ`, makes of what `new` asks of it. Statements may change the
state, and get the same answers over a pool and over a connection. -/
structure TableServer (σ : Type) where
  /-- What opening the pool comes to: a panic, an error or a pool. -/
  connectPool : Option (Except SqlxError Unit)
  /-- What comes of the one-off connection with this number, `none` if it takes too long. -/
  connect : ℕ → Option (Except SqlxError Unit)
  /-- What comes of the settings of the last one-off connection, of so many. -/
  executeTimed : ℕ → RawSql → Option (Except SqlxError Unit)
  execute : ServiceSql → σ → Except SqlxError Unit × σ
  partitionCount : String → σ → Except SqlxError ℤ

namespace TableServer

variable {σ : Type} (S : TableServer σ)

/-- Its answers, for a state and the number of one-off connections asked for so far. -/
def answer (s : σ × ℕ) : (q : ServiceReq) → q.Answer × (σ × ℕ)
  | .store .connect => (S.connect s.2, s.1, s.2 + 1)
  | .store (.executeTimed sql) => (S.executeTimed s.2 sql, s)
  | .store q => (PgStore.stalled q, s)
  | .isCancelled => (false, s)
  | .connectPool => (S.connectPool, s)
  | .execute sql | .executeOnPool sql =>
    ((S.execute sql s.1).1, (S.execute sql s.1).2, s.2)
  | .executeTimed .. => (some (.ok ()), s)
  | .fetchCount table | .fetchCountOnPool table => (S.partitionCount table s.1, s)
  | .sleep _ | .closeConn | .spawnHeartbeat | .cancelHeartbeat => ((), s)

/-- The way to the table. -/
def entry (mode : ConnectionMode) : Except Failure Unit :=
  match mode with
  | .direct => .ok ()
  | .pooled =>
    match S.connectPool with
    | none => .error .panicked
    | some (.error e) => .error (.error (.fromSqlx none e))
    | some (.ok _) => .ok ()

/-- What comes of having something to send statements over, for the `i`-th time. -/
def reach (config : PgConfig) (tune : TuneConfig) (i : ℕ) : Result Unit :=
  match config.mode with
  | .pooled => .ok ()
  | .direct =>
    match S.connect i with
    | none => .error (.connectTimeout (config.directTimeout tune))
    | some (.error e) => .error (.fromSqlx none e)
    | some (.ok _) => .ok ()

/-- The table is created, tuned and counted, and the count is compared. -/
def layOut (reach : ℕ → Result Unit) (table : String) (hashPartitions : ℕ)
    (create tuning : List (Ddl ParamValue)) (c : σ) : Result Unit × σ :=
  match reach 0 with
  | .error e => (.error e, c)
  | .ok _ =>
    match S.execute (.createTable create) c with
    | (.error e, c₁) => (.error (.fromSqlx none e), c₁)
    | (.ok _, c₁) =>
      -- tuning that is refused is only warned about
      let c₂ := (S.execute (.tuneTable tuning) c₁).2
      (do
        reach 1
        let actual ← (S.partitionCount table c₂).mapError (.fromSqlx none)
        verifyPartitionCount table hashPartitions actual, c₂)

/-- What is done under `auto_create_table`. -/
def initTable (config : PgConfig) (tune : TuneConfig) (c : σ) : Except Failure Unit × σ :=
  if config.autoCreateTable then
    match tableSql tune config.tableName with
    | none => (.error .panicked, c)
    | some (create, tuning) =>
      let (r, c') := S.layOut (S.reach config tune) config.tableName tune.hashPartitions create
        tuning c
      (r.mapError .error, c')
  else (.ok (), c)

/-- A start with an accepted configuration. -/
def started (config : PgConfig) (tune : TuneConfig) (c : σ) : Except Failure Unit × σ :=
  match S.entry config.mode with
  | .error e => (.error e, c)
  | .ok _ => S.initTable config tune c

end TableServer

variable {σ : Type} {S : TableServer σ} {x : Setup} {c : σ} {n : ℕ}

namespace Setup

/-- The timeout that the connections of `new` are made with. -/
def Timely (x : Setup) : Prop :=
  x.config.pooler = true → (x.config.directTimeout x.tune).isZero = false

theorem eval_andThen (d k : Part) (s : σ × ℕ) :
    (andThen d k).eval S.answer s =
      match d.eval S.answer s with
      | (.ok _, s') => k.eval S.answer s'
      | (.error e, s') => (.error e, s') := by
  rw [andThen, Dialogue.eval_bind]
  obtain ⟨r, s'⟩ := d.eval S.answer s
  cases r <;> rfl

theorem mode_of_pooler : x.config.mode = if x.config.pooler then .direct else .pooled := rfl

theorem eval_openPool (s : σ × ℕ) :
    x.openPool.eval S.answer s = (S.entry x.config.mode, s) := by
  rw [openPool, mode_of_pooler, TableServer.entry.eq_def]
  cases x.config.pooler with
  | true => rfl
  | false =>
    have hans : S.answer s .connectPool = (S.connectPool, s) := rfl
    simp only [Bool.false_eq_true, ↓reduceIte, Dialogue.eval_ask, hans]
    rcases S.connectPool with _ | e | _ <;> rfl

theorem eval_connectDirect (hpooler : x.config.pooler = true) (hx : x.Timely) :
    (Service.ofStore (PgStore.connectDirect (x.config.directTimeout x.tune))).eval S.answer (c, n) =
      (S.reach x.config x.tune n, c, n + 1) := by
  have hans : S.answer (c, n) (.store .connect) = (S.connect n, c, n + 1) := rfl
  rw [PgStore.connectDirect, hx hpooler, TableServer.reach, mode_of_pooler, hpooler]
  simp only [Bool.false_eq_true, ↓reduceIte, Service.ofStore, Dialogue.embed_ask,
    Dialogue.eval_ask, hans]
  rcases S.connect n with _ | e | _ <;> rfl

/-- What becomes of the settings does not matter. -/
theorem eval_connectDirectWithSession (hpooler : x.config.pooler = true) (hx : x.Timely)
    (keepaliveSql sessionSql : RawSql) :
    (Service.ofStore (PgStore.connectDirectWithSession (x.config.directTimeout x.tune) keepaliveSql
      sessionSql)).eval S.answer (c, n) = (S.reach x.config x.tune n, c, n + 1) := by
  have hans : S.answer (c, n) (.store .connect) = (S.connect n, c, n + 1) := rfl
  rw [PgStore.connectDirectWithSession, PgStore.connectDirect, hx hpooler, TableServer.reach,
    mode_of_pooler, hpooler]
  simp only [Bool.false_eq_true, ↓reduceIte, Service.ofStore, Dialogue.ask_bind,
    Dialogue.embed_ask, Dialogue.eval_ask, hans]
  rcases S.connect n with _ | e | _ <;> rfl

/-- The connections that are asked for in the mode of `x`. -/
def asks (x : Setup) : ℕ := if x.config.pooler then 1 else 0

theorem eval_createTable (hx : x.Timely) (create tuning : List (Ddl ParamValue)) :
    (x.createTable create tuning).eval S.answer (c, 0) =
      match S.reach x.config x.tune 0 with
      | .error e => (.error (.error e), c, x.asks)
      | .ok _ =>
        match S.execute (.createTable create) c with
        | (.error e, c₁) => (.error (.error (.fromSqlx none e)), c₁, x.asks)
        | (.ok _, c₁) => (.ok (), (S.execute (.tuneTable tuning) c₁).2, x.asks) := by
  rcases hsend : S.execute (.createTable create) c with ⟨r, c₁⟩
  cases hpooler : x.config.pooler with
  | false =>
    have hans : S.answer (c, 0) (.executeOnPool (.createTable create)) = (r, c₁, 0) := by
      rw [TableServer.answer, hsend]
    rw [createTable, TableServer.reach, asks, mode_of_pooler, hpooler]
    simp only [Bool.false_eq_true, ↓reduceIte, Service.executeOnPool, Dialogue.ask_bind,
      Dialogue.eval_ask, hans]
    cases r <;> rfl
  | true =>
    have hans : S.answer (c, 1) (.execute (.createTable create)) = (r, c₁, 1) := by
      rw [TableServer.answer, hsend]
    rw [createTable, mode_of_pooler, hpooler, asks, if_pos hpooler]
    simp only [↓reduceIte, Dialogue.eval_bind, eval_connectDirectWithSession hpooler hx]
    cases S.reach x.config x.tune 0 with
    | error e => rfl
    | ok _ =>
      simp only [Service.execute, Dialogue.ask_bind, Dialogue.eval_ask, hans]
      cases r <;> rfl

theorem eval_verify (held : StoreNote) (r : Except SqlxError ℤ) (s : σ × ℕ) :
    (x.verify held r).eval S.answer s =
      ((do
        let actual ← r.mapError (.fromSqlx none)
        verifyPartitionCount x.config.tableName x.tune.hashPartitions actual : Result Unit).mapError
          .error, s) := by
  have hfailed (e : PgStoreError) : (failed held e).eval S.answer s = (.error (.error e), s) := by
    cases held <;> rfl
  cases r with
  | error e => exact hfailed _
  | ok actual =>
    change Dialogue.eval S.answer (match verifyPartitionCount _ _ actual with
      | .error e => failed held e
      | .ok _ => _) s = ((verifyPartitionCount _ _ actual).mapError .error, s)
    cases verifyPartitionCount x.config.tableName x.tune.hashPartitions actual with
    | error e => exact hfailed e
    | ok _ => cases held <;> rfl

theorem eval_verifyPartitions (hx : x.Timely) :
    ∃ n, x.verifyPartitions.eval S.answer (c, x.asks) =
      ((do
        S.reach x.config x.tune 1
        let actual ← (S.partitionCount x.config.tableName c).mapError (.fromSqlx none)
        verifyPartitionCount x.config.tableName x.tune.hashPartitions actual : Result Unit).mapError
          .error, c, n) := by
  cases hpooler : x.config.pooler with
  | false =>
    have hans : S.answer (c, 0) (.fetchCountOnPool x.config.tableName) =
        (S.partitionCount x.config.tableName c, c, 0) := rfl
    rw [verifyPartitions, TableServer.reach, asks, mode_of_pooler, hpooler]
    simp only [Bool.false_eq_true, ↓reduceIte, Dialogue.eval_ask, hans, eval_verify]
    exact ⟨0, rfl⟩
  | true =>
    rw [verifyPartitions, mode_of_pooler, hpooler, asks, if_pos hpooler]
    simp only [↓reduceIte, Dialogue.eval_bind, eval_connectDirect hpooler hx]
    refine ⟨2, ?_⟩
    cases S.reach x.config x.tune 1 with
    | error e => rfl
    | ok _ =>
      have hans : S.answer (c, 2) (.fetchCount x.config.tableName) =
          (S.partitionCount x.config.tableName c, c, 2) := rfl
      simp only [Dialogue.eval_ask, hans, eval_verify]
      rfl

theorem eval_initTable (hx : x.Timely) (hname : ValidIdentifier x.config.tableName) :
    ∃ n, x.initTable.eval S.answer (c, 0) =
      ((S.initTable x.config x.tune c).1, (S.initTable x.config x.tune c).2, n) := by
  have hcount : TuneConfig.partitionCountSql x.config.tableName = some () := if_pos hname
  rw [initTable, TableServer.initTable, tableSql, hcount]
  split_ifs
  · cases x.tune.createTableSql x.config.tableName with
    | none => exact ⟨0, rfl⟩
    | some create =>
      cases x.tune.tuneTableSql x.config.tableName with
      | none => exact ⟨0, rfl⟩
      | some tuning =>
        simp only [text, Option.bind_eq_bind, Option.bind_some, pure, eval_andThen,
          eval_createTable hx, TableServer.layOut]
        cases S.reach x.config x.tune 0 with
        | error e => exact ⟨_, rfl⟩
        | ok _ =>
          rcases S.execute (.createTable create) c with ⟨r, c₁⟩
          cases r with
          | error e => exact ⟨_, rfl⟩
          | ok _ => exact eval_verifyPartitions hx
  · exact ⟨0, rfl⟩

theorem eval_create (hx : x.Timely) (hname : ValidIdentifier x.config.tableName) :
    ∃ n, x.create.eval S.answer (c, 0) =
      ((S.started x.config x.tune c).1.map fun _ ↦ x.created,
        (S.started x.config x.tune c).2, n) := by
  have hspawn : x.spawn.eval S.answer (c, 0) = ((), c, 0) := by
    rw [spawn]
    split_ifs <;> rfl
  have hguard (armed : Bool) (s : σ × ℕ) : (x.dropGuard armed).eval S.answer s = ((), s) := by
    rw [dropGuard]
    split_ifs <;> rfl
  obtain ⟨n, hinit⟩ := eval_initTable (S := S) (c := c) hx hname
  rw [create, Dialogue.eval_bind, hspawn, Dialogue.eval_bind, eval_andThen, eval_openPool,
    TableServer.started]
  cases S.entry x.config.mode with
  | error e =>
    refine ⟨0, ?_⟩
    dsimp only
    rw [Dialogue.eval_bind, hguard]
    rfl
  | ok _ =>
    refine ⟨n, ?_⟩
    dsimp only
    rw [hinit]
    rcases S.initTable x.config x.tune c with ⟨r, c'⟩
    cases r with
    | error e =>
      dsimp only
      rw [Dialogue.eval_bind, hguard]
      rfl
    | ok _ =>
      dsimp only
      rw [Dialogue.eval_bind, hguard]
      rfl

end Setup

/-- **What `new` does to the table**, on any server: the mode only decides what it is that comes
between `new` and the table. -/
theorem new_starts_table (f : F64Text) (parse : Text → Except String Unit) (env : Env) (url : Text)
    (S : TableServer σ) (c : σ) :
    let (r, s) := (PgStore.new f parse env url).eval S.answer (c, 0)
    (r.map fun o ↦ (o.setup.config, o.setup.tune), s.1) =
      match accepted f parse env url with
      | .error e => (.error (.error e), c)
      | .ok (config, tune) =>
        let (r, c') := S.started config tune c
        (r.map fun _ ↦ (config, tune), c') := by
  rw [PgStore.new]
  rcases h : accepted f parse env url with e | ⟨config, tune⟩
  · rfl
  · dsimp only
    split
    · next hsession =>
      rw [PgTuneConfig.sessionSql, if_pos (asserts_of_accepted h).1] at hsession
      cases hsession
    · next sessionSql hsession =>
      obtain ⟨n, hcreate⟩ := Setup.eval_create (S := S) (c := c)
        (x := ⟨config, tune, sessionSql, hsession⟩)
        (fun hpooler ↦ isZero_directTimeout h hpooler) (accepted_eq_ok h).1
      rw [hcreate]
      dsimp only
      rcases S.started config tune c with ⟨r, c'⟩
      cases r <;> rfl

/-- **Where it is reached**, the mode makes no difference. -/
theorem started_of_reached {config : PgConfig} {tune : TuneConfig}
    (hpool : S.connectPool = some (.ok ())) (hconnect : ∀ i, S.connect i = some (.ok ())) (c : σ) :
    S.started config tune c =
      if config.autoCreateTable then
        match tableSql tune config.tableName with
        | none => (.error .panicked, c)
        | some (create, tuning) =>
          let (r, c') := S.layOut (fun _ ↦ .ok ()) config.tableName tune.hashPartitions create
            tuning c
          (r.mapError .error, c')
      else (.ok (), c) := by
  have hentry : S.entry config.mode = .ok () := by
    rw [TableServer.entry.eq_def, hpool]
    cases config.mode <;> rfl
  have hreach : S.reach config tune = fun _ ↦ .ok () := by
    funext i
    rw [TableServer.reach, hconnect]
    cases config.mode <;> rfl
  rw [TableServer.started, hentry]
  dsimp only
  rw [TableServer.initTable, hreach]

/-- A server that is reached, and refuses a statement only for what is in the catalog. -/
def catalogServer (sqlx : DdlError → SqlxError) (schema : String) (path : List String) :
    TableServer (Catalog ParamValue) where
  connectPool := some (.ok ())
  connect _ := some (.ok ())
  executeTimed _ _ := some (.ok ())
  execute
    | .createTable ss, c | .tuneTable ss, c =>
      ((c.send schema path ss).1.mapError sqlx, (c.send schema path ss).2)
    | _, c => (.ok (), c)
  partitionCount table c := .ok (c.partitionCount table)

/-- What is reported where the layout is refused. -/
def refusal (sqlx : DdlError → SqlxError) : LayoutError → PgStoreError
  | .create e => .fromSqlx none (sqlx e)
  | .mismatch e => e

/-- There the table is laid out as `startTable` says. -/
theorem layOut_catalogServer (sqlx : DdlError → SqlxError) (schema : String) (path : List String)
    (table : String) (hashPartitions : ℕ) (create tuning : List (Ddl ParamValue))
    (c : Catalog ParamValue) :
    (catalogServer sqlx schema path).layOut (fun _ ↦ .ok ()) table hashPartitions create tuning c =
      ((startTable schema path table hashPartitions create tuning c).1.mapError (refusal sqlx),
        (startTable schema path table hashPartitions create tuning c).2) := by
  rw [TableServer.layOut, startTable]
  dsimp only [catalogServer]
  rcases c.send schema path create with ⟨r, c₁⟩
  cases r with
  | error e => rfl
  | ok _ =>
    refine Prod.ext ?_ rfl
    change verifyPartitionCount _ _ _ = ((verifyPartitionCount _ _ _).mapError _).mapError _
    cases verifyPartitionCount table hashPartitions
      ((c₁.send schema path tuning).2.partitionCount table) <;> rfl

/-- So the start of a table is what a start comes to on a server that is reached. -/
theorem started_catalogServer (config : PgConfig) (tune : TuneConfig) (sqlx : DdlError → SqlxError)
    (schema : String) (path : List String) (c : Catalog ParamValue) :
    (catalogServer sqlx schema path).started config tune c =
      if config.autoCreateTable then
        match tableSql tune config.tableName with
        | none => (.error .panicked, c)
        | some (create, tuning) =>
          let (r, c') := startTable schema path config.tableName tune.hashPartitions create tuning c
          (r.mapError fun e ↦ .error (refusal sqlx e), c')
      else (.ok (), c) := by
  rw [started_of_reached rfl fun _ ↦ rfl]
  split_ifs
  · rcases tableSql tune config.tableName with _ | ⟨create, tuning⟩
    · rfl
    · dsimp only
      rw [layOut_catalogServer]
      rcases startTable schema path config.tableName tune.hashPartitions create tuning c with
        ⟨r, c'⟩
      cases r <;> rfl
  · rfl

end Table

end SurrealPg
