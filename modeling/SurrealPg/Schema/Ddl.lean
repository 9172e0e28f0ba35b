import SurrealPg.Config.Tune
import SurrealPg.Error
import SurrealPg.Postgres.Catalog

/-!
# Creating, tuning and checking the table

The data definition a store sends when it starts, as statements and as the text they are written
in, and the check of the partition count that follows. With one partition there is one plain
table; with more there is a parent, which only takes a storage strategy, and a child for every
remainder, which takes everything.
-/

namespace SurrealPg

open Postgres

/-! ## Text with fragments -/

/-- A part of an SQL text: written in the source, or interpolated. -/
inductive Piece
  | lit (s : String)
  | frag (s : Text)

/-- The text as it is sent. -/
def render (ps : List Piece) : Text :=
  ps.flatMap fun
    | .lit s => s.toList
    | .frag s => s

/-- The value of a storage parameter. -/
inductive ParamValue
  | int (n : ℤ)
  | float (x : F64)
  deriving DecidableEq

/-- `Display` of an integer. -/
def intText (n : ℤ) : Text := (toString n).toList

/-- `Display` of a number that is not negative. -/
def natText (n : ℕ) : Text := (toString n).toList

def ParamValue.text (f : F64Text) : ParamValue → Text
  | int n => intText n
  | float x => f.display x

/-- The assignments of an `ALTER TABLE .. SET (..)`, a line each. -/
def optionPieces (f : F64Text) : List (String × ParamValue) → List Piece
  | [] => []
  | [p] => [.lit ("    " ++ p.1 ++ " = "), .frag (p.2.text f), .lit "\n"]
  | p :: ps =>
    .lit ("    " ++ p.1 ++ " = ") :: .frag (p.2.text f) :: .lit ",\n" :: optionPieces f ps

/-- The text of a statement. -/
def ddlPieces (f : F64Text) : Ddl ParamValue → List Piece
  | .createTable name unlogged partitioned =>
    [.lit (if unlogged then "CREATE UNLOGGED TABLE IF NOT EXISTS " else
       "CREATE TABLE IF NOT EXISTS "),
     .frag name.toList, .lit " (key BYTEA PRIMARY KEY, val BYTEA NOT NULL)",
     .lit (if partitioned then " PARTITION BY HASH (key);" else ";")]
  | .createPartition name parent unlogged modulus remainder =>
    [.lit (if unlogged then "CREATE UNLOGGED TABLE IF NOT EXISTS " else
       "CREATE TABLE IF NOT EXISTS "),
     .frag name.toList, .lit " PARTITION OF ", .frag parent.toList,
     .lit " FOR VALUES WITH (MODULUS ", .frag (natText modulus), .lit ", REMAINDER ",
     .frag (natText remainder), .lit ");"]
  | .setOptions name options =>
    [.lit "ALTER TABLE ", .frag name.toList, .lit " SET (\n"] ++ optionPieces f options ++
      [.lit ");"]
  | .setStorage name storage =>
    [.lit "ALTER TABLE ", .frag name.toList, .lit " ALTER COLUMN val SET STORAGE ",
     .frag storage.toList, .lit ";"]

/-- A line of the tuning SQL: a comment, or a statement. -/
inductive SqlPart
  | comment (ps : List Piece)
  | statement (d : Ddl ParamValue)

namespace TuneConfig

variable (t : TuneConfig) (table : String)

/-- `{table}_p{i}` -/
def partitionName (table : String) (i : ℕ) : String := table ++ "_p" ++ toString i

/-! ## `create_table_sql` -/

/-- The persistence of a partition is not written in its statement. -/
def createStatements : List (Ddl ParamValue) :=
  if t.hashPartitions ≤ 1 then [.createTable table t.useUnlogged false]
  else
    .createTable table t.useUnlogged true ::
      (List.range t.hashPartitions).map fun i ↦
        .createPartition (partitionName table i) table false t.hashPartitions i

/-- The `CREATE TABLE` DDL; `none` where an assertion panics. -/
def createTableSql : Option (List (Ddl ParamValue)) :=
  if ValidIdentifier table ∧ t.validatePartitionNames table = true then
    some (t.createStatements table)
  else none

/-- Its text: a plain table is one statement, and with partitions each statement ends its line. -/
def createTableText (f : F64Text) : List Piece :=
  if t.hashPartitions ≤ 1 then (t.createStatements table).flatMap (ddlPieces f)
  else (t.createStatements table).flatMap fun d ↦ ddlPieces f d ++ [.lit "\n"]

/-! ## `tune_table_sql` -/

def storageOptions : List (String × ParamValue) :=
  [("fillfactor", .int t.fillfactor), ("toast_tuple_target", .int t.toastThreshold)]

def autovacuumOptions : List (String × ParamValue) :=
  [("autovacuum_vacuum_scale_factor", .float t.autovacVacuumScale),
   ("autovacuum_vacuum_threshold", .int t.autovacVacuumThreshold),
   ("autovacuum_analyze_scale_factor", .float t.autovacAnalyzeScale),
   ("autovacuum_vacuum_cost_limit", .int t.autovacVacuumCostLimit),
   ("autovacuum_vacuum_cost_delay", .int t.autovacVacuumCostDelay)]

/-- The storage tuning of a table that stores rows. -/
def storageParts (name : String) : List SqlPart :=
  [.statement (.setOptions name t.storageOptions),
   .statement (.setStorage name t.toastStorage)]

/-- What is altered: the one table, or the strategy of the parent and everything of each child. -/
def tuneParts : List SqlPart :=
  if t.hashPartitions ≤ 1 then
    .comment [.lit "Table storage tuning"] :: t.storageParts table ++
      [.comment [.lit "Autovacuum tuning"], .statement (.setOptions table t.autovacuumOptions)]
  else
    [.comment [.lit "Parent table: SET STORAGE only (all SET (...) storage parameters are"],
     .comment [.lit "illegal on partitioned tables in PG 13; child partitions get the full"],
     .comment [.lit "storage + autovacuum tuning below)."],
     .statement (.setStorage table t.toastStorage)] ++
    (List.range t.hashPartitions).flatMap fun i ↦
      let part := partitionName table i
      .comment [.lit "Partition ", .frag part.toList, .lit " storage tuning"] ::
        t.storageParts part ++
        [.comment [.lit "Partition ", .frag part.toList, .lit " autovacuum tuning"],
         .statement (.setOptions part t.autovacuumOptions)]

/-- The statements of the tuning SQL. -/
def tuneStatements : List (Ddl ParamValue) :=
  (t.tuneParts table).filterMap fun
    | .comment _ => none
    | .statement d => some d

/-- The table tuning DDL; `none` where an assertion panics. -/
def tuneTableSql : Option (List (Ddl ParamValue)) :=
  if ValidIdentifier table ∧ t.validatePartitionNames table = true ∧ t.tableAsserts = true then
    some (t.tuneStatements table)
  else none

/-- Its text, every part on a new line. -/
def tuneTableText (f : F64Text) : List Piece :=
  (t.tuneParts table).flatMap fun
    | .comment ps => .lit "\n-- " :: ps
    | .statement d => .lit "\n" :: ddlPieces f d

/-- `partition_count_sql`, which only checks the name; the query is `Catalog.partitionCount`. -/
def partitionCountSql : Option Unit := if ValidIdentifier table then some () else none

end TuneConfig

/-! ## Verification -/

/-- Verify that the actual partition count matches the configured value. -/
def verifyPartitionCount (table : String) (expected : ℕ) (actual : ℤ) : Result Unit :=
  if expected ≤ 1 then
    if 0 < actual then
      .error (.other (s!"hash_partitions mismatch: table '{table}' has {actual} existing hash " ++
        "partitions but configuration expects no partitioning (hash_partitions=1). " ++
        "Hash partition count is immutable — to change it, drop and recreate the " ++
        s!"table, or update hash_partitions to {actual} to match the existing table."))
    else .ok ()
  else if actual ≠ expected then
    if actual = 0 then
      .error (.other (s!"hash_partitions mismatch: table '{table}' is not partitioned " ++
        s!"but configuration expects hash_partitions={expected}. " ++
        "Hash partition count is immutable — to use partitioning, drop " ++
        "and recreate the table."))
    else
      .error (.other (s!"hash_partitions mismatch: table '{table}' has {actual} existing hash " ++
        s!"partitions but configuration expects hash_partitions={expected}. " ++
        "Hash partition count is immutable — to change it, drop and recreate " ++
        s!"the table, or update hash_partitions to {actual} to match the existing table."))
  else .ok ()

/-- The count a configuration is satisfied with. -/
def expectedCount (partitions : ℕ) : ℕ := if partitions ≤ 1 then 0 else partitions

theorem verifyPartitionCount_ok_iff {table : String} {partitions count : ℕ} :
    verifyPartitionCount table partitions count = .ok () ↔ count = expectedCount partitions := by
  rw [verifyPartitionCount, expectedCount]
  split_ifs with h₁ h₂ h₃ h₄
  · exact iff_of_false nofun (by omega)
  · exact iff_of_true rfl (by omega)
  · exact iff_of_false nofun (by omega)
  · exact iff_of_false nofun (by omega)
  · exact iff_of_true rfl (by omega)

end SurrealPg
