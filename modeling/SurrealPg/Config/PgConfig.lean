import SurrealPg.Config.Text
import SurrealPg.Semantics.BinarySearch

/-!
# The configuration in the URL

The custom parameters of a connection URL, parameter by parameter as the loop over the query
string treats them. A value that is not understood is warned about and changes nothing; the one
parameter that can make the whole configuration fail is the table name, because it is written into
SQL. What happened to each pair is part of the result, so that one can ask afterwards which pairs
were looked at.
-/

namespace SurrealPg

open Text

/-! ## Table names -/

/-- SQL reserved words, in the order of the source's sorted array. -/
def RESERVED : List String :=
  ["ALL", "ANALYSE", "ANALYZE", "AND", "ANY", "AS", "ASC", "BETWEEN", "BY", "CASE", "CHECK",
   "CLUSTER", "COMMENT", "CONSTRAINT", "COPY", "CREATE", "CROSS", "CURRENT", "DEFAULT", "DELETE",
   "DESC", "DISTINCT", "DO", "DROP", "ELSE", "EXCEPT", "EXISTS", "EXPLAIN", "FALSE", "FETCH",
   "FOR", "FOREIGN", "FROM", "FULL", "GRANT", "GROUP", "HAVING", "ILIKE", "IN", "INDEX", "INNER",
   "INSERT", "INTERSECT", "INTO", "IS", "JOIN", "KEY", "LEFT", "LIKE", "LIMIT", "LISTEN", "LOCK",
   "NATURAL", "NOT", "NOTIFY", "NULL", "NULLS", "OFFSET", "ON", "OR", "ORDER", "OUTER", "OVER",
   "PRIMARY", "REFERENCES", "REINDEX", "RETURNING", "REVOKE", "RIGHT", "ROLLBACK", "SAVEPOINT",
   "SELECT", "SET", "SIMILAR", "SOME", "TABLE", "THEN", "TRIGGER", "TRUE", "TRUNCATE", "UNION",
   "UNIQUE", "USING", "VACUUM", "VALUES", "VIEW", "WHEN", "WHERE", "WITH"]

/-- `b.is_ascii_uppercase() || b == b'_'` -/
def isUpperByte (b : UInt8) : Bool := (65 ≤ b && b ≤ 90) || b == 95

/-- Whether the name is a reserved word, by binary search. One in upper case is looked up as it
is, any other one by its upper case. -/
def isSqlReserved (name : Text) : Bool :=
  if (name.flatMap String.utf8EncodeChar).all isUpperByte then
    (Semantics.binarySearch RESERVED (String.ofList name)).isSome
  else (Semantics.binarySearch RESERVED (String.ofList name.asciiUppercase)).isSome

def isIdentifierStart (c : Char) : Bool := c.isAlpha || c == '_'

def isIdentifierChar (c : Char) : Bool := c.isAlphanum || c == '_'

/-- Validate that a SQL identifier contains only safe characters, starts with a letter or
underscore, is not a reserved word, and fits into 63 bytes. -/
def validateIdentifier (name : String) : Except String Unit :=
  match name.toList with
  | [] => .error "invalid table name '': must be non-empty and contain only [a-zA-Z0-9_]"
  | first :: rest =>
    if !isIdentifierStart first then
      .error s!"invalid table name '{name}': first character must be a letter or underscore"
    else if !(first :: rest).all isIdentifierChar then
      .error s!"invalid table name '{name}': must contain only [a-zA-Z0-9_]"
    else if isSqlReserved (first :: rest) then
      .error s!"invalid table name '{name}': SQL reserved word"
    else if 63 < name.utf8ByteSize then
      .error (s!"invalid table name '{name}': exceeds PG's 63-byte identifier limit " ++
        "(NAMEDATALEN)")
    else .ok ()

/-- A name `validate_identifier` accepts. -/
def ValidIdentifier (name : String) : Prop := validateIdentifier name = .ok ()

instance (name : String) : Decidable (ValidIdentifier name) :=
  decidable_of_iff ((validateIdentifier name).toBool = true) <| by
    rw [ValidIdentifier]
    cases validateIdentifier name with
    | error e => simp [Except.toBool]
    | ok u => simp [Except.toBool]

theorem ValidIdentifier.chars {name : String} (h : ValidIdentifier name) :
    (∃ first rest, name.toList = first :: rest ∧ isIdentifierStart first = true) ∧
      (∀ c ∈ name.toList, isIdentifierChar c = true) ∧ name.utf8ByteSize ≤ 63 := by
  rw [ValidIdentifier, validateIdentifier] at h
  split at h
  · exact nomatch h
  · rename_i first rest heq
    split_ifs at h with hfirst hall hres hlen
    rw [Bool.not_eq_true', Bool.not_eq_false] at hfirst hall
    rw [← heq] at hall
    exact ⟨⟨first, rest, heq, hfirst⟩, List.all_eq_true.mp hall, not_lt.mp hlen⟩

/-! ## The parameters -/

/-- Policy for persistent prepared statements. -/
inductive PersistentStatements
  | auto
  | enabled
  | disabled
  deriving DecidableEq

/-- `PersistentStatements::parse` -/
def PersistentStatements.parse (value : Text) : Option PersistentStatements :=
  let v := String.ofList value.asciiLowercase
  if v ∈ ["true", "1", "yes", "on", "enabled"] then some .enabled
  else if v ∈ ["false", "0", "no", "off", "disabled"] then some .disabled
  else if v = "auto" then some .auto
  else none

/-- PostgreSQL storage engine configuration; `none` defers to the tuning parameters. -/
structure PgConfig where
  maxConnections : Option ℕ
  minConnections : Option ℕ
  connectTimeout : Option Duration
  idleTimeout : Option Duration
  maxLifetime : Option Duration
  slowAcquireThresholdSecs : Option Duration
  slowStatementsThresholdSecs : Option Duration
  autoCreateTable : Bool
  tableName : String
  isolationLevel : PgIsolation
  persistentStatements : PersistentStatements
  pooler : Bool
  hashPartitions : Option ℕ
  deriving DecidableEq

/-- `PgConfig::default()` -/
instance : Inhabited PgConfig where
  default := {
    maxConnections := none
    minConnections := none
    connectTimeout := none
    idleTimeout := none
    maxLifetime := none
    slowAcquireThresholdSecs := none
    slowStatementsThresholdSecs := none
    autoCreateTable := true
    tableName := "kv"
    isolationLevel := default
    persistentStatements := .auto
    pooler := false
    hashPartitions := none }

/-- The parameters with an arm in the loop over the query string. -/
inductive Param
  | maxConnections
  | minConnections
  | maxLifetime
  | autoCreateTable
  | tableName
  | isolationLevel
  | persistentStatements
  | connectTimeout
  | idleTimeout
  | slowAcquireThresholdSecs
  | slowStatementsThresholdSecs
  | pooler
  | hashPartitions
  deriving DecidableEq

namespace Param

/-- The key the arm matches. -/
def name : Param → String
  | maxConnections => "max_connections"
  | minConnections => "min_connections"
  | maxLifetime => "max_lifetime"
  | autoCreateTable => "auto_create_table"
  | tableName => "table_name"
  | isolationLevel => "isolation_level"
  | persistentStatements => "persistent_statements"
  | connectTimeout => "connect_timeout"
  | idleTimeout => "idle_timeout"
  | slowAcquireThresholdSecs => "slow_acquire_threshold_secs"
  | slowStatementsThresholdSecs => "slow_statements_threshold_secs"
  | pooler => "pooler"
  | hashPartitions => "hash_partitions"

/-- Every parameter, in the order of the arms. -/
def all : List Param :=
  [maxConnections, minConnections, maxLifetime, autoCreateTable, tableName, isolationLevel,
   persistentStatements, connectTimeout, idleTimeout, slowAcquireThresholdSecs,
   slowStatementsThresholdSecs, pooler, hashPartitions]

/-- The arm a key is matched by, if any. -/
def ofKey (key : String) : Option Param := all.find? fun p ↦ p.name == key

theorem ofKey_eq_some_iff {key : String} {p : Param} : ofKey key = some p ↔ key = p.name := by
  constructor
  · intro h
    have hname := List.find?_some h
    exact (beq_iff_eq.mp hname).symm
  · rintro rfl
    cases p <;> decide +kernel

end Param

/-- What became of one pair of the query string. -/
inductive Treatment
  /-- A parameter of ours: the configuration after it, and whether a warning was logged. -/
  | ours (c : PgConfig) (warned : Bool)
  /-- A table name that is not an identifier; the whole configuration fails. -/
  | refused (e : String)
  /-- Left to sqlx, with a warning if sqlx would not know it either. -/
  | theirs

/-- The environment, as `std::env::var` reads it: `none` for a variable that is not set or is not
Unicode. -/
abbrev Env := String → Option Text

namespace PgConfig

/-- Apply a value that was understood; warn about one that was not. -/
def applied {α : Type} (c : PgConfig) (value : Option α) (f : α → PgConfig) : Treatment :=
  match value with
  | some a => .ours (f a) false
  | none => .ours c true

/-- A number of seconds that is not zero. -/
def seconds (value : Text) : Option Duration :=
  match parseU64 value with
  | some 0 | none => none
  | some secs => some (.fromSecs secs)

def isolation (value : Text) : Option PgIsolation :=
  let v := String.ofList value.asciiLowercase
  if v ∈ ["repeatable_read", "repeatable read"] then some .repeatableRead
  else if v = "serializable" then some .serializable
  else if v ∈ ["read_committed", "read committed"] then some .readCommitted
  else none

/-- More than 10000 connections are capped; none at all is a mistake. -/
def mergeMaxConnections (c : PgConfig) (value : Text) : Treatment :=
  match parseU32 value with
  | some 0 | none => .ours c true
  | some v =>
    if 10000 < v then .ours { c with maxConnections := some 10000 } true
    else .ours { c with maxConnections := some v } false

/-- Here zero is warned about and kept. -/
def mergeMinConnections (c : PgConfig) (value : Text) : Treatment :=
  match parseU32 value with
  | none => .ours c true
  | some v =>
    if 10000 < v then .ours { c with minConnections := some 10000 } true
    else .ours { c with minConnections := some v } (v == 0)

/-- `Self::validate_identifier(&value)?` -/
def mergeTableName (c : PgConfig) (value : Text) : Treatment :=
  match validateIdentifier (String.ofList value) with
  | .error e => .refused e
  | .ok _ => .ours { c with tableName := String.ofList value } false

/-- A level that is not recognized is the default one, not the one set before. -/
def mergeIsolationLevel (c : PgConfig) (value : Text) : Treatment :=
  match isolation value with
  | some l => .ours { c with isolationLevel := l } false
  | none => .ours { c with isolationLevel := .readCommitted } true

def mergeHashPartitions (c : PgConfig) (value : Text) : Treatment :=
  match parseU32 value with
  | some 0 | none => .ours c true
  | some v => if 1024 < v then .ours c true else .ours { c with hashPartitions := some v } false

/-- The arms of the loop, for a pair `key=value` whose value is decoded. -/
def mergeParam (c : PgConfig) (value : Text) : Param → Treatment
  | .maxConnections => c.mergeMaxConnections value
  | .minConnections => c.mergeMinConnections value
  | .maxLifetime => c.applied (seconds value) fun d ↦ { c with maxLifetime := some d }
  | .autoCreateTable => c.applied (parseBoolParam value) fun b ↦ { c with autoCreateTable := b }
  | .tableName => c.mergeTableName value
  | .isolationLevel => c.mergeIsolationLevel value
  | .persistentStatements =>
    c.applied (PersistentStatements.parse value) fun p ↦ { c with persistentStatements := p }
  | .connectTimeout => c.applied (seconds value) fun d ↦ { c with connectTimeout := some d }
  | .idleTimeout => c.applied (seconds value) fun d ↦ { c with idleTimeout := some d }
  | .slowAcquireThresholdSecs =>
    c.applied (seconds value) fun d ↦ { c with slowAcquireThresholdSecs := some d }
  | .slowStatementsThresholdSecs =>
    c.applied (seconds value) fun d ↦ { c with slowStatementsThresholdSecs := some d }
  | .pooler => c.applied (parseBoolParam value) fun b ↦ { c with pooler := b }
  | .hashPartitions => c.mergeHashPartitions value

/-- Known parameter names that we actually process. -/
def KNOWN_PARAMS : List String :=
  ["max_connections", "min_connections", "max_lifetime", "auto_create_table", "table_name",
   "isolation_level", "persistent_statements", "connect_timeout", "idle_timeout",
   "slow_acquire_threshold_secs", "slow_statements_threshold_secs", "pooler", "hash_partitions"]

/-- One pass of the loop: a pair with a value, or a bare name, which is only warned about. -/
def mergePair (c : PgConfig) (pair : Text) : Treatment :=
  match splitOnce '=' pair with
  | some (key, value) =>
    match Param.ofKey (String.ofList key) with
    | some p => c.mergeParam (percentDecode value) p
    | none => .theirs
  | none => if String.ofList pair ∈ KNOWN_PARAMS then .ours c true else .theirs

/-- The loop over the pairs, which a refused table name leaves. -/
def mergePairs : PgConfig → List Text → Except String PgConfig
  | c, [] => .ok c
  | c, pair :: pairs =>
    match c.mergePair pair with
    | .ours c' _ => mergePairs c' pairs
    | .refused e => .error e
    | .theirs => mergePairs c pairs

/-- `url.split('?').nth(1)`, up to the next `#`. -/
def queryOf (url : Text) : Option Text :=
  (url.splitOn '?')[1]?.map fun query ↦ ((query.splitOn '#').head?).getD query

/-- Parse configuration overrides from the query parameters of the URL. The last check of the
source, of `min_connections` against `max_connections`, only warns. -/
def mergeUrlParams (c : PgConfig) (url : Text) : Except String PgConfig :=
  match queryOf url with
  | none => .ok c
  | some query => c.mergePairs (query.splitOn '&')

/-- Apply configuration from environment variables. -/
def mergeEnv (c : PgConfig) (env : Env) : PgConfig :=
  match (env "PG_PERSISTENT_STATEMENTS").bind fun raw ↦ PersistentStatements.parse (trim raw) with
  | some p => { c with persistentStatements := p }
  | none => c

end PgConfig

end SurrealPg
