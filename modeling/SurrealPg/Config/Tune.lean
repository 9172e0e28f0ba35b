import SurrealPg.Config.PgConfig

/-!
# The tuning parameters in the environment

`PG_TUNED_*` variables become numbers, durations, sizes and names, each read by its own parser
and kept if it passes its own check; what does not parse or pass is replaced by the default. The
text that is made of these values asserts most of the checks again.

Decimal fractions are read and written by the standard library. Nothing depends on how it rounds,
so the two conversions are a parameter; how the digits are laid out is not.
-/

namespace SurrealPg

open Text

/-! ## Fractions -/

/-- An `f64`. -/
inductive F64
  | nan
  | infinite (negative : Bool)
  | negativeZero
  | finite (q : ℚ)
  deriving DecidableEq

namespace F64

def isFinite : F64 → Bool
  | nan | infinite _ => false
  | negativeZero | finite _ => true

/-- `(0.0..=1.0).contains(&v)` -/
def inUnit : F64 → Bool
  | nan | infinite _ => false
  | negativeZero => true
  | finite q => decide (0 ≤ q) && decide (q ≤ 1)

/-- `v > 0.0` -/
def isPositive : F64 → Bool
  | nan | negativeZero => false
  | infinite negative => !negative
  | finite q => decide (0 < q)

/-- `v.clamp(0.0, 1.0)`, which no comparison with a NaN changes. -/
def clampUnit : F64 → F64
  | nan => nan
  | infinite negative => finite (if negative then 0 else 1)
  | negativeZero => negativeZero
  | finite q => finite (if q < 0 then 0 else if 1 < q then 1 else q)

end F64

/-- The conversions between `f64` and text. -/
structure F64Text where
  /-- `f64::from_str` -/
  parse : Text → Option F64
  /-- The shortest digits that read back as the positive number, and how many of them stand before
  the point. -/
  shortest : ℚ → List (Fin 10) × ℤ

namespace F64Text

variable (f : F64Text)

def digit (d : Fin 10) : Char := d.val.digitChar

/-- The digits with a point after the first `e`, and zeros where there are too few. -/
def positional (ds : Text) (e : ℤ) : Text :=
  if e ≤ 0 then '0' :: '.' :: List.replicate (-e).toNat '0' ++ ds
  else if ds.length ≤ e.toNat then ds ++ List.replicate (e.toNat - ds.length) '0'
  else ds.take e.toNat ++ '.' :: ds.drop e.toNat

/-- `Display` of a finite positive number. -/
def positive (q : ℚ) : Text := positional ((f.shortest q).1.map digit) (f.shortest q).2

/-- `Display` of an `f64`. -/
def display : F64 → Text
  | .nan => "NaN".toList
  | .infinite false => "inf".toList
  | .infinite true => "-inf".toList
  | .negativeZero => "-0".toList
  | .finite q =>
    if q = 0 then "0".toList else if 0 < q then f.positive q else '-' :: f.positive (-q)

end F64Text

/-! ## Reading a variable -/

/-- `env_u32`, `env_i32`, `env_f64` and `env_bool`: the trimmed value if it parses. -/
def envParsed {α : Type} (parse : Text → Option α) (env : Env) (key : String) (default : α) : α :=
  match env key with
  | some raw => (parse (trim raw)).getD default
  | none => default

def envU32 : Env → String → ℕ → ℕ := envParsed parseU32

def envI32 : Env → String → ℤ → ℤ := envParsed parseI32

def envF64 (f : F64Text) : Env → String → F64 → F64 := envParsed f.parse

def envBool : Env → String → Bool → Bool := envParsed parseBoolParam

/-- The trimmed value if it passes the check. -/
def envStrValidated (env : Env) (key default : String) (validate : String → Bool) : String :=
  match env key with
  | some raw => if validate (String.ofList (trim raw)) then String.ofList (trim raw) else default
  | none => default

/-- A duration that is not zero. -/
def envDurationNonzero (env : Env) (key : String) (defaultSecs : ℕ) : Duration :=
  match env key with
  | some raw =>
    match parseDuration raw with
    | some d => if d.isZero then .fromSecs defaultSecs else d
    | none => .fromSecs defaultSecs
  | none => .fromSecs defaultSecs

/-- A value out of range is replaced by the default. -/
def checked {α : Type} (ok : α → Bool) (v default : α) : α := if ok v then v else default

/-- Validate TOAST storage strategy: must be one of the four PG-allowed values. -/
def validateToastStorage (v : String) : Bool := ["external", "extended", "main", "plain"].contains v

/-! ## The parameters -/

/-- All tuning parameters for the PostgreSQL KV storage backend. The last four are only logged. -/
structure TuneConfig where
  poolMax : ℕ
  poolMin : ℕ
  poolAcquireTimeout : Duration
  poolIdleTimeout : Duration
  poolMaxLifetime : Duration
  /-- The parameters of the session SQL and of the keepalive. -/
  session : PgTuneConfig
  fillfactor : ℤ
  toastStorage : String
  toastThreshold : ℤ
  useUnlogged : Bool
  hashPartitions : ℕ
  autovacVacuumScale : F64
  autovacVacuumThreshold : ℤ
  autovacAnalyzeScale : F64
  autovacVacuumCostLimit : ℤ
  autovacVacuumCostDelay : ℤ
  serverSharedBuffers : String
  serverWalBuffers : String
  serverMaxConnections : ℤ
  serverCheckpointTarget : F64

/-- `PgTuneConfig::default()` -/
instance : Inhabited TuneConfig where
  default := {
    poolMax := 20
    poolMin := 5
    poolAcquireTimeout := .fromSecs 10
    poolIdleTimeout := .fromSecs 600
    poolMaxLifetime := .fromSecs 1800
    session := default
    fillfactor := 90
    toastStorage := "external"
    toastThreshold := 2032
    useUnlogged := false
    hashPartitions := 1
    autovacVacuumScale := .finite (5 / 100)
    autovacVacuumThreshold := 50
    autovacAnalyzeScale := .finite (2 / 100)
    autovacVacuumCostLimit := 2000
    autovacVacuumCostDelay := 1
    serverSharedBuffers := "256MB"
    serverWalBuffers := "16MB"
    serverMaxConnections := 100
    serverCheckpointTarget := .finite (9 / 10) }

namespace TuneConfig

/-- `PG_TUNED_POOL_MAX_CONNECTIONS` -/
def envPoolMax (env : Env) : ℕ := checked (· ≠ 0) (envU32 env "PG_TUNED_POOL_MAX_CONNECTIONS" 20) 20

/-- `server_random_page_cost`, which is kept if it is finite and positive. -/
def envRandomPageCost (f : F64Text) (env : Env) : ℚ :=
  match envF64 f env "PG_TUNED_SERVER_RANDOM_PAGE_COST" (.finite (11 / 10)) with
  | .finite q => if 0 < q then q else 11 / 10
  | _ => 11 / 10

/-- The session and keepalive parameters of `from_env`. -/
def envSession (f : F64Text) (env : Env) : PgTuneConfig where
  keepaliveIdle := envDurationNonzero env "PG_TUNED_KEEPALIVE_IDLE" 60
  keepaliveInterval := envDurationNonzero env "PG_TUNED_KEEPALIVE_INTERVAL" 10
  keepaliveCount :=
    .ofNat (checked (fun v ↦ v ≠ 0 && v ≤ 100) (envU32 env "PG_TUNED_KEEPALIVE_COUNT" 5) 5)
  statementTimeout := envDurationNonzero env "PG_TUNED_QUERY_STATEMENT_TIMEOUT" 30
  idleTxnTimeout := envDurationNonzero env "PG_TUNED_QUERY_IDLE_TXN_TIMEOUT" 60
  lockTimeout := envDurationNonzero env "PG_TUNED_QUERY_LOCK_TIMEOUT" 10
  statsTarget :=
    checked (fun v ↦ -1 ≤ v && v ≤ 10000) (envI32 env "PG_TUNED_QUERY_STATS_TARGET" 500) 500
  serverWorkMem := envStrValidated env "PG_TUNED_SERVER_WORK_MEM" "64MB" validatePgMemorySize
  serverMaintenanceWorkMem :=
    envStrValidated env "PG_TUNED_SERVER_MAINTENANCE_WORK_MEM" "256MB" validatePgMemorySize
  serverRandomPageCost := envRandomPageCost f env
  serverEffectiveCacheSize :=
    envStrValidated env "PG_TUNED_SERVER_EFFECTIVE_CACHE_SIZE" "1GB" validatePgMemorySize

/-- Load all parameters from environment variables, falling back to defaults. -/
def fromEnv (f : F64Text) (env : Env) : TuneConfig where
  poolMax := envPoolMax env
  poolMin := min (envU32 env "PG_TUNED_POOL_MIN_CONNECTIONS" 5) (envPoolMax env)
  poolAcquireTimeout := envDurationNonzero env "PG_TUNED_POOL_ACQUIRE_TIMEOUT" 10
  poolIdleTimeout := envDurationNonzero env "PG_TUNED_POOL_IDLE_TIMEOUT" 600
  poolMaxLifetime := envDurationNonzero env "PG_TUNED_POOL_MAX_LIFETIME" 1800
  session := envSession f env
  fillfactor := checked (fun v ↦ 1 ≤ v && v ≤ 100) (envI32 env "PG_TUNED_TABLE_FILLFACTOR" 90) 90
  toastStorage :=
    envStrValidated env "PG_TUNED_TABLE_TOAST_STORAGE" "external" validateToastStorage
  toastThreshold := checked (fun v ↦ 128 ≤ v && v ≤ 8160)
    (envI32 env "PG_TUNED_TABLE_TOAST_THRESHOLD" 2032) 2032
  useUnlogged := envBool env "PG_TUNED_TABLE_UNLOGGED" false
  hashPartitions := checked (fun v ↦ v ≠ 0 && v ≤ 1024)
    (envU32 env "PG_TUNED_TABLE_HASH_PARTITIONS" 1) 1
  autovacVacuumScale := checked (fun v ↦ v.isFinite && v.inUnit)
    (envF64 f env "PG_TUNED_AUTOVAC_VACUUM_SCALE" (.finite (5 / 100))) (.finite (5 / 100))
  autovacVacuumThreshold := checked (0 ≤ ·) (envI32 env "PG_TUNED_AUTOVAC_VACUUM_THRESHOLD" 50) 50
  autovacAnalyzeScale := checked (fun v ↦ v.isFinite && v.inUnit)
    (envF64 f env "PG_TUNED_AUTOVAC_ANALYZE_SCALE" (.finite (2 / 100))) (.finite (2 / 100))
  autovacVacuumCostLimit :=
    checked (0 ≤ ·) (envI32 env "PG_TUNED_AUTOVAC_VACUUM_COST_LIMIT" 2000) 2000
  autovacVacuumCostDelay :=
    checked (0 ≤ ·) (envI32 env "PG_TUNED_AUTOVAC_VACUUM_COST_DELAY" 1) 1
  serverSharedBuffers :=
    envStrValidated env "PG_TUNED_SERVER_SHARED_BUFFERS" "256MB" validatePgMemorySize
  serverWalBuffers := envStrValidated env "PG_TUNED_SERVER_WAL_BUFFERS" "16MB" validatePgMemorySize
  serverMaxConnections := checked (fun v ↦ 0 < v && v ≤ 10000)
    (envI32 env "PG_TUNED_SERVER_MAX_CONNECTIONS" 100) 100
  serverCheckpointTarget :=
    (envF64 f env "PG_TUNED_SERVER_CHECKPOINT_TARGET" (.finite (9 / 10))).clampUnit

/-- The override of the store: `hash_partitions` in the URL wins over the environment. -/
def overridden (t : TuneConfig) (c : PgConfig) : TuneConfig :=
  match c.hashPartitions with
  | none => t
  | some hp => if hp = 0 ∨ 1024 < hp then t else { t with hashPartitions := hp }

/-! ## Assertions -/

/-- The bytes of the longest partition name, `{table}_p{N-1}`. -/
def lastPartitionLength (t : TuneConfig) (table : String) : ℕ :=
  table.utf8ByteSize + 2 + (toString (t.hashPartitions - 1)).length

/-- Whether `validate_partition_names` returns. -/
def validatePartitionNames (t : TuneConfig) (table : String) : Bool :=
  decide (t.hashPartitions ≤ 1) || decide (t.lastPartitionLength table ≤ 63)

/-- The assertions `tune_table_sql` makes of the values it writes. -/
def tableAsserts (t : TuneConfig) : Bool :=
  validateToastStorage t.toastStorage &&
    (decide (1 ≤ t.fillfactor) && decide (t.fillfactor ≤ 100)) &&
    (t.autovacVacuumScale.isFinite && t.autovacVacuumScale.inUnit) &&
    (t.autovacAnalyzeScale.isFinite && t.autovacAnalyzeScale.inUnit) &&
    decide (0 ≤ t.autovacVacuumCostLimit) && decide (0 ≤ t.autovacVacuumCostDelay) &&
    decide (0 ≤ t.autovacVacuumThreshold) &&
    (decide (128 ≤ t.toastThreshold) && decide (t.toastThreshold ≤ 8160))

end TuneConfig

/-! ## What the checks leave -/

private theorem band_true {a b : Bool} (ha : a = true) (hb : b = true) : (a && b) = true := by
  rw [ha, hb]
  rfl

theorem checked_of {α : Type} (ok : α → Bool) (v : α) {d : α} (hd : ok d = true) :
    ok (checked ok v d) = true := by
  by_cases h : ok v = true
  · rwa [checked, if_pos h]
  · rwa [checked, if_neg h]

theorem envStrValidated_of {env : Env} {key d : String} {validate : String → Bool}
    (hd : validate d = true) : validate (envStrValidated env key d validate) = true := by
  rw [envStrValidated]
  cases env key with
  | none => exact hd
  | some raw =>
    dsimp only
    split_ifs with h
    · exact h
    · exact hd

namespace TuneConfig

variable (f : F64Text) (env : Env)

/-- The page cost is what the source keeps of the number it reads. -/
theorem finite_envRandomPageCost : F64.finite (envRandomPageCost f env) =
    checked (fun v ↦ v.isFinite && v.isPositive)
      (envF64 f env "PG_TUNED_SERVER_RANDOM_PAGE_COST" (.finite (11 / 10)))
      (.finite (11 / 10)) := by
  rw [envRandomPageCost, checked]
  cases envF64 f env "PG_TUNED_SERVER_RANDOM_PAGE_COST" (.finite (11 / 10)) with
  | nan | infinite negative | negativeZero => rfl
  | finite q => by_cases hq : 0 < q <;> simp [F64.isFinite, F64.isPositive, hq]

theorem envRandomPageCost_pos : 0 < envRandomPageCost f env := by
  have h := checked_of (fun v : F64 ↦ v.isFinite && v.isPositive)
    (envF64 f env "PG_TUNED_SERVER_RANDOM_PAGE_COST" (.finite (11 / 10))) (d := .finite (11 / 10))
    (by decide +kernel)
  rw [← finite_envRandomPageCost, Bool.and_eq_true] at h
  exact of_decide_eq_true h.2

/-- Every value the session SQL asserts something of has passed that check or is the default. -/
theorem fromEnv_sessionAsserts : (fromEnv f env).session.sessionAsserts = true := by
  have hstats := checked_of (fun v : ℤ ↦ -1 ≤ v && v ≤ 10000)
    (envI32 env "PG_TUNED_QUERY_STATS_TARGET" 500) (d := 500) rfl
  have hmem : ∀ key d, validatePgMemorySize d = true →
      validatePgMemorySize (envStrValidated env key d validatePgMemorySize) = true :=
    fun key d hd ↦ envStrValidated_of hd
  rw [Bool.and_eq_true] at hstats
  simp only [PgTuneConfig.sessionAsserts, fromEnv, envSession, Bool.and_eq_true]
  refine ⟨⟨⟨⟨⟨?_, ?_⟩, ?_⟩, decide_eq_true (envRandomPageCost_pos f env)⟩, hstats.1⟩, hstats.2⟩
  · exact hmem _ _ (by decide +kernel)
  · exact hmem _ _ (by decide +kernel)
  · exact hmem _ _ (by decide +kernel)

theorem fromEnv_tableAsserts : (fromEnv f env).tableAsserts = true := by
  have hscale : ∀ v d : F64, (d.isFinite && d.inUnit) = true →
      ((checked (fun v ↦ v.isFinite && v.inUnit) v d).isFinite &&
        (checked (fun v ↦ v.isFinite && v.inUnit) v d).inUnit) = true :=
    fun v d hd ↦ checked_of (fun v : F64 ↦ v.isFinite && v.inUnit) v hd
  have hnonneg : ∀ v d : ℤ, decide (0 ≤ d) = true → decide (0 ≤ checked (0 ≤ ·) v d) = true :=
    fun v d hd ↦ checked_of (fun v : ℤ ↦ 0 ≤ v) v hd
  have hfill := checked_of (fun v : ℤ ↦ 1 ≤ v && v ≤ 100)
    (envI32 env "PG_TUNED_TABLE_FILLFACTOR" 90) (d := 90) rfl
  have htoast := checked_of (fun v : ℤ ↦ 128 ≤ v && v ≤ 8160)
    (envI32 env "PG_TUNED_TABLE_TOAST_THRESHOLD" 2032) (d := 2032) rfl
  rw [tableAsserts]
  refine band_true (band_true (band_true (band_true (band_true
    (band_true (band_true ?_ hfill) ?_) ?_) ?_) ?_) ?_) htoast
  · exact envStrValidated_of (by decide +kernel)
  · exact hscale _ _ (by decide +kernel)
  · exact hscale _ _ (by decide +kernel)
  · exact hnonneg _ _ rfl
  · exact hnonneg _ _ rfl
  · exact hnonneg _ _ rfl

theorem fromEnv_hashPartitions :
    (fromEnv f env).hashPartitions ≠ 0 ∧ (fromEnv f env).hashPartitions ≤ 1024 := by
  have h := checked_of (fun v : ℕ ↦ v ≠ 0 && v ≤ 1024)
    (envU32 env "PG_TUNED_TABLE_HASH_PARTITIONS" 1) (d := 1) rfl
  rw [Bool.and_eq_true, decide_eq_true_iff, decide_eq_true_iff] at h
  exact h

/-- The override touches nothing that is asserted of but the number of partitions. -/
theorem overridden_asserts (t : TuneConfig) (c : PgConfig) :
    (t.overridden c).session = t.session ∧ (t.overridden c).tableAsserts = t.tableAsserts := by
  rw [overridden]
  split
  · exact ⟨rfl, rfl⟩
  · split_ifs <;> exact ⟨rfl, rfl⟩

end TuneConfig

end SurrealPg
