import SurrealPg.Config.StripParams
import SurrealPg.Schema.Ddl

/-!
# Loading the configuration and making the texts

What `PgStore::new` does before it talks to the server, and the texts it sends when it does. The
URL is read twice, by the loop over its query string and by sqlx; the environment fills in what the
URL leaves open; and each function that makes a text asserts again what the parsers have checked.
An assertion that fails is a panic, and the one that can fail combines two values that are checked
one by one: the name of the table, and the number of its partitions.
-/

namespace SurrealPg

open Postgres Text

namespace Text

/-- `str::find` of a text: the place where it first begins. -/
def find (pat : Text) : Text → Option ℕ
  | [] => if pat.isEmpty then some 0 else none
  | c :: cs => if pat.isPrefixOf (c :: cs) then some 0 else (find pat cs).map (· + 1)

/-- `str::find` of a character. -/
def findChar (c : Char) (s : Text) : Option ℕ := s.findIdx? (· == c)

/-- `str::rfind` of a character. -/
def rfindChar (c : Char) (s : Text) : Option ℕ :=
  (findChar c s.reverse).map fun i ↦ s.length - 1 - i

end Text

/-- Redact userinfo (username:password) from a PostgreSQL connection URL. -/
def redactUrl (url : Text) : Text :=
  match find "://".toList url with
  | none => url
  | some schemeEnd =>
    let afterScheme := url.drop (schemeEnd + 3)
    let authorityEnd := (((findChar '/' afterScheme).or (findChar '?' afterScheme)).or
      (findChar '#' afterScheme)).getD afterScheme.length
    let authority := afterScheme.take authorityEnd
    match rfindChar '@' authority with
    | none => url
    | some atPos =>
      url.take (schemeEnd + 3) ++ "***:***@".toList ++ authority.drop (atPos + 1) ++
        afterScheme.drop authorityEnd

/-! ## The configuration -/

/-- `min_connections` is capped to `max_connections`. -/
def PgConfig.capMinConnections (c : PgConfig) : PgConfig :=
  match c.minConnections, c.maxConnections with
  | some lo, some hi => if hi < lo then { c with minConnections := some hi } else c
  | _, _ => c

/-- The configuration of the URL and of the environment. -/
def loadConfig (env : Env) (url : Text) : Result PgConfig :=
  match PgConfig.mergeUrlParams default url with
  | .error e => .error (.other e)
  | .ok c =>
    let config := c.mergeEnv env
    match validateIdentifier config.tableName with
    | .error e =>
      .error (.other s!"table_name '{config.tableName}' is invalid after config merge: {e}")
    | .ok _ => .ok config.capMinConnections

/-- The tuning parameters of the environment, with the override of the URL. -/
def loadTune (f : F64Text) (env : Env) (config : PgConfig) : TuneConfig :=
  (TuneConfig.fromEnv f env).overridden config

/-- The steps of `PgStore::new` that can refuse a configuration, in their order. How sqlx parses a
URL is not part of this repository: `parse` is its answer. -/
def accepted (f : F64Text) (parse : Text → Except String Unit) (env : Env) (url : Text) :
    Result (PgConfig × TuneConfig) :=
  match loadConfig env url with
  | .error e => .error e
  | .ok config =>
    let tune := loadTune f env config
    if config.maxConnections.getD tune.poolMax = 0 ∧ config.pooler = false then
      .error (.other "max_connections must be > 0 in pool mode")
    else match parse (stripCustomParams url) with
      | .error e => .error (.postgres s!"invalid URL {String.ofList (redactUrl url)}: {e}")
      | .ok () => .ok (config, tune)

/-! ## The texts -/

/-- What a start sends. -/
structure StartSql where
  config : PgConfig
  tune : TuneConfig
  session : RawSql
  keepalive : RawSql
  /-- Creating and tuning the table, with `auto_create_table`. -/
  table : Option (List (Ddl ParamValue) × List (Ddl ParamValue))

/-- The texts of the table, in the order they are made. -/
def tableSql (tune : TuneConfig) (table : String) :
    Option (List (Ddl ParamValue) × List (Ddl ParamValue)) := do
  let create ← tune.createTableSql table
  let tuning ← tune.tuneTableSql table
  TuneConfig.partitionCountSql table
  return (create, tuning)

/-- The texts of a start; `none` where an assertion panics. -/
def startSql (config : PgConfig) (tune : TuneConfig) : Option StartSql := do
  let session ← tune.session.sessionSql
  let keepalive := tune.session.keepaliveSql
  if config.autoCreateTable then
    let table ← tableSql tune config.tableName
    return ⟨config, tune, session, keepalive, some table⟩
  else return ⟨config, tune, session, keepalive, none⟩

/-- Configuration loading and SQL text generation in `PgStore::new`: an error, the texts of the
start, or, for `none`, a panic. -/
def prepareStart (f : F64Text) (parse : Text → Except String Unit) (env : Env) (url : Text) :
    Option (Result StartSql) :=
  match accepted f parse env url with
  | .error e => some (.error e)
  | .ok (config, tune) => (startSql config tune).map .ok

/-! ## What an accepted configuration passes -/

section

variable {f : F64Text} {parse : Text → Except String Unit} {env : Env} {url : Text}
  {config : PgConfig} {tune : TuneConfig}

theorem capMinConnections_tableName (c : PgConfig) :
    c.capMinConnections.tableName = c.tableName := by
  rw [PgConfig.capMinConnections]
  split
  · split_ifs <;> rfl
  · rfl

theorem validIdentifier_of_loadConfig (h : loadConfig env url = .ok config) :
    ValidIdentifier config.tableName := by
  rw [loadConfig] at h
  split at h
  · exact nomatch h
  · rename_i c hc
    dsimp only at h
    split at h
    · exact nomatch h
    · rename_i u hvalid
      rw [← Except.ok.inj h, capMinConnections_tableName]
      exact hvalid

theorem accepted_eq_ok (h : accepted f parse env url = .ok (config, tune)) :
    ValidIdentifier config.tableName ∧ tune = loadTune f env config := by
  rw [accepted] at h
  split at h
  · exact nomatch h
  · rename_i c hc
    dsimp only at h
    split_ifs at h
    split at h
    · exact nomatch h
    · obtain ⟨rfl, rfl⟩ := Prod.mk.inj (Except.ok.inj h)
      exact ⟨validIdentifier_of_loadConfig hc, rfl⟩

/-- **What the parsers let through passes every assertion on a single value.** -/
theorem asserts_of_accepted (h : accepted f parse env url = .ok (config, tune)) :
    tune.session.sessionAsserts = true ∧ tune.tableAsserts = true := by
  obtain ⟨-, rfl⟩ := accepted_eq_ok h
  obtain ⟨hsession, htable⟩ := TuneConfig.overridden_asserts (TuneConfig.fromEnv f env) config
  rw [loadTune, hsession, htable]
  exact ⟨TuneConfig.fromEnv_sessionAsserts f env, TuneConfig.fromEnv_tableAsserts f env⟩

end

theorem tableSql_isSome_iff {tune : TuneConfig} {table : String} (hname : ValidIdentifier table)
    (hasserts : tune.tableAsserts = true) :
    (tableSql tune table).isSome = true ↔ tune.validatePartitionNames table = true := by
  by_cases hnames : tune.validatePartitionNames table = true
  · simp [tableSql, TuneConfig.createTableSql, TuneConfig.tuneTableSql,
      TuneConfig.partitionCountSql, hname, hasserts, hnames]
  · simp [tableSql, TuneConfig.createTableSql, hnames]

theorem validatePartitionNames_iff {tune : TuneConfig} {table : String} :
    tune.validatePartitionNames table = true ↔
      tune.hashPartitions ≤ 1 ∨ tune.lastPartitionLength table ≤ 63 := by
  rw [TuneConfig.validatePartitionNames, Bool.or_eq_true, decide_eq_true_iff, decide_eq_true_iff]

theorem startSql_isSome_iff {config : PgConfig} {tune : TuneConfig}
    (hname : ValidIdentifier config.tableName) (hsession : tune.session.sessionAsserts = true)
    (htable : tune.tableAsserts = true) :
    (startSql config tune).isSome = true ↔ (config.autoCreateTable = true →
      tune.hashPartitions ≤ 1 ∨ tune.lastPartitionLength config.tableName ≤ 63) := by
  rw [← validatePartitionNames_iff, ← tableSql_isSome_iff hname htable]
  cases hauto : config.autoCreateTable with
  | false => simp [startSql, PgTuneConfig.sessionSql, hsession, hauto]
  | true =>
    cases htexts : tableSql tune config.tableName with
    | none => simp [startSql, PgTuneConfig.sessionSql, hsession, hauto, htexts]
    | some texts => simp [startSql, PgTuneConfig.sessionSql, hsession, hauto, htexts]

/-- **Start-up configuration never panics** exactly if, where the table is created, there is one
partition or the longest partition name fits into 63 bytes. -/
theorem prepareStart_isSome_iff (f : F64Text) (parse : Text → Except String Unit) (env : Env)
    (url : Text) :
    (prepareStart f parse env url).isSome = true ↔
      ∀ config tune, accepted f parse env url = .ok (config, tune) →
        config.autoCreateTable = true →
          tune.hashPartitions ≤ 1 ∨ tune.lastPartitionLength config.tableName ≤ 63 := by
  rw [prepareStart]
  rcases h : accepted f parse env url with e | ⟨config, tune⟩
  · refine iff_of_true rfl fun config tune heq ↦ ?_
    simp only [reduceCtorEq] at heq
  · obtain ⟨hsession, htable⟩ := asserts_of_accepted h
    dsimp only
    rw [Option.isSome_map, startSql_isSome_iff (accepted_eq_ok h).1 hsession htable]
    constructor
    · intro hfits config' tune' heq hauto
      obtain ⟨rfl, rfl⟩ := Prod.mk.inj (Except.ok.inj heq)
      exact hfits hauto
    · intro hall hauto
      exact hall config tune rfl hauto

/-- A name of 62 bytes and two partitions: each passes its own check. No number is read from the
environment, and none is written, so the conversions do not matter. -/
theorem prepareStart_panics_longName :
    (prepareStart ⟨fun _ ↦ none, fun _ ↦ ([], 0)⟩ (fun _ ↦ .ok ()) (fun _ ↦ none)
      ("postgres://host/db?table_name=".toList ++ List.replicate 62 'k' ++
        "&hash_partitions=2".toList)).isSome = false := by
  decide +kernel

end SurrealPg
