import SurrealPg.Config.Ranges
import SurrealPg.Schema.Layout
import SurrealPg.Postgres.Lexer

/-!
# The SQL texts

Every text a store sends, as the literals of the source and the fragments interpolated between them,
and the shape of a text: its literals, with a hole for each fragment. The scanner can be run over a
shape as long as every hole is at a place where a word leaves no mark; over the text itself, with
words in the holes, it then reports the same.
-/

namespace SurrealPg

open Postgres Text

/-! ## The statements on keys -/

/-- Pre-built SQL statements for a single table. -/
structure Sql where
  existsFlag : List Piece
  get : List Piece
  getm : List Piece
  set : List Piece
  setm : List Piece
  put : List Piece
  putc : List Piece
  del : List Piece
  delc : List Piece
  delr : List Piece
  count : List Piece
  rangeKeysAsc : List Piece
  rangeKeysDesc : List Piece
  rangeKvAsc : List Piece
  rangeKvDesc : List Piece
  rangeKvAll : List Piece
  countApprox : List Piece

namespace Sql

/-- `Sql::new` -/
def new (table : String) : Sql where
  existsFlag := [.lit "SELECT 1 AS exists_flag FROM ", .frag table.toList, .lit " WHERE key = $1"]
  get := [.lit "SELECT val FROM ", .frag table.toList, .lit " WHERE key = $1"]
  getm := [.lit "SELECT key, val FROM ", .frag table.toList, .lit " WHERE key = ANY($1)"]
  set :=
    [.lit "INSERT INTO ", .frag table.toList,
     .lit " (key, val) VALUES ($1, $2) ON CONFLICT (key) DO UPDATE SET val = EXCLUDED.val"]
  setm :=
    [.lit "INSERT INTO ", .frag table.toList,
     .lit (" (key, val) SELECT * FROM UNNEST($1::bytea[], $2::bytea[]) " ++
       "ON CONFLICT (key) DO UPDATE SET val = EXCLUDED.val")]
  put :=
    [.lit "INSERT INTO ", .frag table.toList,
     .lit " (key, val) VALUES ($1, $2) ON CONFLICT (key) DO NOTHING"]
  putc :=
    [.lit "UPDATE ", .frag table.toList, .lit " SET val = $2 WHERE key = $1 AND val = $3"]
  del := [.lit "DELETE FROM ", .frag table.toList, .lit " WHERE key = $1"]
  delc := [.lit "DELETE FROM ", .frag table.toList, .lit " WHERE key = $1 AND val = $2"]
  delr := [.lit "DELETE FROM ", .frag table.toList, .lit " WHERE key >= $1 AND key < $2"]
  count :=
    [.lit "SELECT count(*) AS cnt FROM ", .frag table.toList,
     .lit " WHERE key >= $1 AND key < $2"]
  rangeKeysAsc :=
    [.lit "SELECT key FROM ", .frag table.toList,
     .lit " WHERE key >= $1 AND key < $2 ORDER BY key ASC LIMIT $3 OFFSET $4"]
  rangeKeysDesc :=
    [.lit "SELECT key FROM ", .frag table.toList,
     .lit " WHERE key >= $1 AND key < $2 ORDER BY key DESC LIMIT $3 OFFSET $4"]
  rangeKvAsc :=
    [.lit "SELECT key, val FROM ", .frag table.toList,
     .lit " WHERE key >= $1 AND key < $2 ORDER BY key ASC LIMIT $3 OFFSET $4"]
  rangeKvDesc :=
    [.lit "SELECT key, val FROM ", .frag table.toList,
     .lit " WHERE key >= $1 AND key < $2 ORDER BY key DESC LIMIT $3 OFFSET $4"]
  rangeKvAll :=
    [.lit "SELECT key, val FROM ", .frag table.toList,
     .lit " WHERE key >= $1 AND key < $2 ORDER BY key ASC"]
  countApprox :=
    [.lit ("SELECT reltuples::bigint AS approx_cnt FROM pg_class " ++
       "WHERE relname = $1 AND reltuples >= 0")]

/-- All of them. -/
def texts (s : Sql) : List (List Piece) :=
  [s.existsFlag, s.get, s.getm, s.set, s.setm, s.put, s.putc, s.del, s.delc, s.delr, s.count,
   s.rangeKeysAsc, s.rangeKeysDesc, s.rangeKvAsc, s.rangeKvDesc, s.rangeKvAll, s.countApprox]

end Sql

/-! ## Settings -/

/-- The value of a setting, as it is interpolated. -/
def Guc.write (f : F64Text) : Guc → Text
  | seconds n => natText n ++ ['s']
  | millis n => natText n ++ ['m', 's']
  | text s => s.toList
  | int n => intText n
  | num q => f.display (.finite q)

/-- The quotes the source writes around a value. -/
def Guc.quote : Guc → String
  | seconds _ | millis _ | text _ => "'"
  | int _ | num _ => ""

/-- `SET {name} = '{value}';` -/
def sessionPieces (f : F64Text) (p : String × Guc) : List Piece :=
  [.lit ("SET " ++ p.1 ++ " = " ++ p.2.quote), .frag (p.2.write f), .lit (p.2.quote ++ ";")]

/-- `SET {name} = {value}` -/
def keepalivePieces (f : F64Text) (p : String × Guc) : List Piece :=
  [.lit ("SET " ++ p.1 ++ " = "), .frag (p.2.write f)]

/-- The text of a message outside a transaction. The isolation level is one of three fixed texts. -/
def RawSql.pieces (f : F64Text) : RawSql → List Piece
  | .keepalive assignments =>
    ((assignments.map (keepalivePieces f)).intersperse [.lit "; "]).flatten
  | .session assignments =>
    ((assignments.map (sessionPieces f)).intersperse [.lit "\n"]).flatten
  | .begin level => [.lit ("BEGIN ISOLATION LEVEL " ++ level)]
  | .rollback => [.lit "ROLLBACK"]

/-- `VACUUM ANALYZE {table}` -/
def vacuumSql (table : String) : List Piece := [.lit "VACUUM ANALYZE ", .frag table.toList]

/-- The texts that a store with this configuration can send, apart from those of the table. -/
def storeTexts (config : PgConfig) (tune : TuneConfig) (f : F64Text) : List (List Piece) :=
  (Sql.new config.tableName).texts ++
    [(RawSql.begin config.isolationLevel.asSql).pieces f, vacuumSql config.tableName,
     tune.session.keepaliveSql.pieces f] ++
    (tune.session.sessionSql.map fun sql ↦ sql.pieces f).toList

/-- The texts that create and tune the table. An assertion may keep them from being sent. -/
def tableTexts (config : PgConfig) (tune : TuneConfig) (f : F64Text) : List (List Piece) :=
  [tune.createTableText config.tableName f, tune.tuneTableText config.tableName f]

/-! ## Shapes -/

/-- The literals of a text, with a hole for each fragment. -/
def shape (ps : List Piece) : List (Option String) :=
  ps.map fun
    | .lit s => some s
    | .frag _ => none

theorem shape_append (ps qs : List Piece) : shape (ps ++ qs) = shape ps ++ shape qs :=
  List.map_append

theorem shape_flatMap {α : Type} (l : List α) (g : α → List Piece) :
    shape (l.flatMap g) = l.flatMap fun a ↦ shape (g a) :=
  List.map_flatMap

/-- Run the scanner over a shape; `none` where a hole is not at a calm place. -/
def runShape : Scan → List (Option String) → Option (List Mark × Scan)
  | s, [] => some ([], s)
  | s, some t :: hs =>
    (runShape (s.run t.toList).2 hs).map fun r ↦ ((s.run t.toList).1 ++ r.1, r.2)
  | s, none :: hs => if s.Calm then runShape s hs else none

/-- All fragments of a text are words. -/
def Worded (ps : List Piece) : Prop := ∀ x, Piece.frag x ∈ ps → Scan.IsWord x

theorem render_cons (p : Piece) (ps : List Piece) : render (p :: ps) = render [p] ++ render ps := by
  rw [render, render, render, List.flatMap_cons, List.flatMap_singleton]

/-- **Words in calm places do not matter.** -/
theorem run_render {ps : List Piece} (hps : Worded ps) {s : Scan} {r : List Mark × Scan}
    (h : runShape s (shape ps) = some r) : s.run (render ps) = r := by
  induction ps generalizing s r with
  | nil => exact Option.some.inj h
  | cons p ps ih =>
    have hrest : Worded ps := fun x hx ↦ hps x (List.mem_cons_of_mem _ hx)
    rw [render_cons, Scan.run_append]
    cases p with
    | lit t =>
      obtain ⟨r', hr', rfl⟩ := Option.map_eq_some_iff.mp h
      have hlit : render [.lit t] = t.toList := List.append_nil _
      rw [hlit, ih hrest hr']
    | frag w =>
      have hfrag : render [.frag w] = w := List.append_nil _
      by_cases hs : s.Calm = true
      · have h' : runShape s (shape ps) = some r := (if_pos hs).symm.trans h
        rw [hfrag, Scan.run_of_isWord hs (hps w List.mem_cons_self)]
        dsimp only
        rw [ih hrest h']
        rfl
      · have hnone : runShape s (shape (.frag w :: ps)) = none := if_neg hs
        rw [hnone] at h
        exact nomatch h

/-- The marks of a text: its statements, quotes and comments. -/
def marks (ps : List Piece) : List Mark := (Scan.start.run (render ps)).1

theorem marks_congr {ps qs : List Piece} (hps : Worded ps) (hqs : Worded qs)
    (hshape : shape ps = shape qs) (hcalm : (runShape .start (shape ps)).isSome = true) :
    marks ps = marks qs := by
  obtain ⟨r, hr⟩ := Option.isSome_iff_exists.mp hcalm
  rw [marks, marks, run_render hps hr, run_render hqs (hshape ▸ hr)]

end SurrealPg
